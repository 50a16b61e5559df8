import Wave300.L2nat.DhcpOptions
import Wave300.Lib.BigEndian

/-!
# Requests to a DHCP server

`dhcp_req_update` asks the server for a broadcast answer. It puts the options that the server then
needs into a packet that is sent to one server, so the packet is copied to a buffer with room for
them.
-/

namespace Wave300.L2nat

open Wave300.Lib

/-- `struct sk_buff`, its bytes from `data` on -/
structure SkBuff where
  mem : Nat → UInt8
  len : Nat
  tailroom : Nat
  cloned : Bool
  users : Nat

/-- What is in the buffer of an allocation, and how much longer it is than it was asked for. -/
structure Room where
  bytes : Nat → UInt8
  spare : Nat

/-- What the checksums of the kernel make of bytes. -/
structure Checksums where
  ipFastCsum : List UInt8 → UInt16
  csumTcpudpMagic : List UInt8 → List UInt8 → Nat → List UInt8 → UInt16

inductive DhcpFault where
  /-- A buffer is used that was given back. -/
  | freed
  | skbOverPanic
  | nullDeref
  deriving DecidableEq, Repr

/-- A number of two bytes, in network order. -/
def word (m : Nat → UInt8) (a : Nat) : Nat := ofBytes (slice m a 2)

def storeWord (m : Nat → UInt8) (a n : Nat) : Nat → UInt8 := store m a (toBytes 2 n)

/-! ## Where the headers are -/

def udpHeader (m : Nat → UInt8) (ip : Nat) : Nat := ip + (m ip &&& 15).toNat * 4

def dhcpHeader (m : Nat → UInt8) (ip : Nat) : Nat := udpHeader m ip + 8

/-- Where the options start, after the magic. -/
def dhcpOpts (m : Nat → UInt8) (ip : Nat) : Nat := dhcpHeader m ip + 240

def inaddrBroadcast : List UInt8 := [255, 255, 255, 255]

def daddr (m : Nat → UInt8) (ip : Nat) : List UInt8 := slice m (ip + 16) 4

def ciaddr (m : Nat → UInt8) (dhcp : Nat) : List UInt8 := slice m (dhcp + 12) 4

/-- What `dhcp_req_update` looks at before it changes a packet. -/
def Accepted (m : Nat → UInt8) (ip : Nat) : Prop :=
  m (ip + 9) = 17 ∧ word m (udpHeader m ip + 2) = 67 ∧ m (dhcpHeader m ip) = 1 ∧
    m (dhcpHeader m ip + 1) = 1 ∧ slice m (dhcpHeader m ip + 236) 4 = [0x63, 0x82, 0x53, 0x63]

instance (m : Nat → UInt8) (ip : Nat) : Decidable (Accepted m ip) :=
  inferInstanceAs (Decidable (_ ∧ _))

/-! ## Buffers -/

/-- `skb_copy_expand`: the packet in a new buffer, with room after it. -/
def skbCopyExpand (room : Option Room) (skb : SkBuff) (extra : Nat) : Option SkBuff :=
  room.map fun r =>
    { mem := fun a => if a < skb.len then skb.mem a else r.bytes a
      len := skb.len
      tailroom := extra + r.spare
      cloned := false
      users := 1 }

/-- `skb_unshare`: a clone is replaced by a copy, and given back also when there is none. -/
def skbUnshare (room : Option Room) (skb : SkBuff) : Option SkBuff :=
  if skb.cloned then skbCopyExpand room skb skb.tailroom else some skb

def skbPut (skb : SkBuff) (n : Nat) : Except DhcpFault SkBuff :=
  if n ≤ skb.tailroom then .ok { skb with len := skb.len + n, tailroom := skb.tailroom - n }
  else .error .skbOverPanic

/-! ## Which options are added -/

/-- `add_req_ip_opt` and `add_srv_id_opt` -/
structure Adds where
  reqIp : Bool
  srvId : Bool
  deriving DecidableEq

def Adds.none : Adds := ⟨false, false⟩

def optIpSize (b : Bool) : Nat := if b then 6 else 0

def Adds.extraSize (adds : Adds) : Nat := optIpSize adds.reqIp + optIpSize adds.srvId

def findOpt (skb : SkBuff) (opts : Nat) (optCode : UInt8) : Option Nat :=
  (dhcpReqFindOpt skb.mem skb.len opts optCode).2

/-- The options that a request to one server lacks, if it can take them. -/
def addOpts (skb : SkBuff) (opts : Nat) : Adds :=
  match findOpt skb opts dhcpOptEnd, findOpt skb opts dhcpOptMsgType with
  | some _, some hdr =>
    if skb.mem (hdr + 2) ≠ 3 then .none
    else
      let adds : Adds :=
        ⟨(findOpt skb opts dhcpOptReqIp).isNone, (findOpt skb opts dhcpOptSrvId).isNone⟩
      if 65535 < skb.len + adds.extraSize then .none else adds
  | _, _ => .none

/-! ## Changes to the packet -/

/-- The checksum after the broadcast flag was set, as a big-endian host counts it. -/
def flagCheck (check : Nat) : Nat :=
  let sum := check + 0x7FFF
  let check := (sum + if 0xFFFF ≤ sum then 1 else 0) % 2 ^ 16
  if check = 0 then 0xFFFF else check

def setBroadcast (m : Nat → UInt8) (udp dhcp : Nat) : Nat → UInt8 :=
  if m (dhcp + 10) &&& 0x80 = 0 then
    let m := store m (dhcp + 10) [m (dhcp + 10) ||| 0x80]
    if word m (udp + 6) = 0 then m else storeWord m (udp + 6) (flagCheck (word m (udp + 6)))
  else m

/-- An option with an address, where the END is found, and an END after it. -/
def putOpt (m : Nat → UInt8) (tail opts : Nat) (optCode : UInt8) (address : List UInt8) :
    Except DhcpFault (Nat → UInt8) :=
  match (dhcpReqFindOpt m tail opts dhcpOptEnd).2 with
  | none => .error .nullDeref
  | some hdr => .ok (store m hdr (optCode :: 4 :: address ++ [dhcpOptEnd]))

def putOptIf (b : Bool) (m : Nat → UInt8) (tail opts : Nat) (optCode : UInt8)
    (address : List UInt8) : Except DhcpFault (Nat → UInt8) :=
  if b then putOpt m tail opts optCode address else .ok m

/-- `ciaddr` and the sizes. -/
def resize (m : Nat → UInt8) (ip udp dhcp extra : Nat) : Nat → UInt8 :=
  let m := store m (dhcp + 12) [0, 0, 0, 0]
  let m := storeWord m (ip + 2) (word m (ip + 2) + extra)
  storeWord m (udp + 4) (word m (udp + 4) + extra)

def recalculate (sums : Checksums) (m : Nat → UInt8) (ip udp : Nat) : Nat → UInt8 :=
  let ihl := (m ip &&& 15).toNat
  let m := storeWord m (ip + 10) 0
  let m := storeWord m (ip + 10) (sums.ipFastCsum (slice m ip (ihl * 4))).toNat
  if word m (udp + 6) = 0 then m
  else
    let size := word m (udp + 4)
    let m := storeWord m (udp + 6) 0
    let check := (sums.csumTcpudpMagic (slice m (ip + 12) 4) (daddr m ip) size
      (slice m udp size)).toNat
    storeWord m (udp + 6) (if check = 0 then 0xFFFF else check)

/-- What is done to the packet once it is in the buffer it is sent in. -/
def dhcpReqRewrite (sums : Checksums) (skb : SkBuff) (ip extra : Nat) (adds : Adds) :
    Except DhcpFault SkBuff := do
  let udp := udpHeader skb.mem ip
  let dhcp := dhcpHeader skb.mem ip
  let opts := dhcpOpts skb.mem ip
  let m := setBroadcast skb.mem udp dhcp
  let skb ← skbPut { skb with mem := m } extra
  let m ← putOptIf adds.reqIp m skb.len opts dhcpOptReqIp (ciaddr m dhcp)
  let m ← putOptIf adds.srvId m skb.len opts dhcpOptSrvId (daddr m ip)
  return { skb with mem := recalculate sums (resize m ip udp dhcp adds.extraSize) ip udp }

/-- `dhcp_req_update`, of a packet whose IP header is at an offset. -/
def dhcpReqUpdate (sums : Checksums) (room : Option Room) (skb : SkBuff) (ip : Nat) :
    Except DhcpFault SkBuff :=
  if ¬Accepted skb.mem ip then .ok skb
  else if daddr skb.mem ip = inaddrBroadcast then
    -- The type of the message is looked for in the old buffer, which is gone if it was a clone.
    if skb.cloned ∧ skb.users = 1 then .error .freed
    else dhcpReqRewrite sums ((skbUnshare room skb).getD skb) ip 0 .none
  else
    let adds := addOpts skb (dhcpOpts skb.mem ip)
    let extra := if adds.extraSize = 0 then skb.tailroom else adds.extraSize
    dhcpReqRewrite sums ((skbCopyExpand room skb extra).getD skb) ip extra adds

end Wave300.L2nat
