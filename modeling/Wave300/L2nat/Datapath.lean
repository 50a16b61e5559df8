import Wave300.L2nat.Frames
import Wave300.L2nat.Map

/-!
# Frames from and to the hosts behind a station

`mtlk_l2nat_on_tx` learns the hosts from the frames they send and puts the address of the station
into ARP and IPX packets; `mtlk_l2nat_on_rx` addresses the frames that come back to the host they
are for. A host whose address is not in the table is not reached: its frames go to the default host,
which the user has set or which the host database has.
-/

namespace Wave300.L2nat

open Wave300.Lib

/-- An IP address where it is in a packet. -/
def address (m : Nat → UInt8) (a : Nat) : UInt32 := UInt32.ofNat (ofBytes (slice m a 4))

def macAt (m : Nat → UInt8) (a : Nat) : Mac := BitVec.ofNat 48 (ofBytes (slice m a 6))

def macBytes (mac : Mac) : List UInt8 := toBytes 6 mac.toNat

/-- `is_valid_ether_addr` -/
def isValidEtherAddr (mac : Mac) : Bool := !mac.getLsbD 40 && mac ≠ 0

/-- The address of a host in the table. -/
def Table.hostOf (k : Kernel) (s : Table) (ip : UInt32) : Option Mac :=
  (s.findEntry k ip).map fun i => (s.entries i).mac

/-- An ARP header for IP over Ethernet. -/
def EtherArp (m : Nat → UInt8) (arp : Nat) : Prop := word m (arp + 2) = 0x0800 ∧ word m arp = 1

instance (m : Nat → UInt8) (arp : Nat) : Decidable (EtherArp m arp) :=
  inferInstanceAs (Decidable (_ ∧ _))

inductive TxFault where
  /-- The headers do not end in the frame. -/
  | headers
  /-- A buffer is used that was given back. -/
  | freed
  | dhcp (f : DhcpFault)
  deriving DecidableEq, Repr

/-- `skb_unshare` as it is used here: without a copy the old buffer is used. -/
def unshared (room : Option Room) (skb : SkBuff) : Except TxFault SkBuff :=
  if skb.cloned ∧ skb.users = 1 ∧ room.isNone then .error .freed
  else .ok ((skbUnshare room skb).getD skb)

/-- `mtlk_l2nat_on_tx`, with the table it leaves. -/
def onTx (k : Kernel) (sums : Checksums) (room : Option Room) (coreMac : Mac) (s : Table)
    (skb : SkBuff) (now first last : UInt32) : Table × Except TxFault SkBuff :=
  match analyse skb.len skb.mem (word skb.mem 12) 14 with
  | none => (s, .error .headers)
  | some (.ip, ip) =>
    ((s.checkAndAddEntry k (address skb.mem (ip + 12)) (macAt skb.mem 6) now first last).1,
      (dhcpReqUpdate sums room skb ip).mapError .dhcp)
  | some (.arp, arp) =>
    if EtherArp skb.mem arp then
      match unshared room skb with
      | .error f => (s, .error f)
      | .ok skb =>
        let p := arp + 8
        ((s.checkAndAddEntry k (address skb.mem (p + 6)) (macAt skb.mem p) now first last).1,
          .ok { skb with mem := store skb.mem p (macBytes coreMac) })
    else (s, .ok skb)
  | some (.ipx, ipx) =>
    (s, (unshared room skb).map fun skb =>
      { skb with mem := store skb.mem (ipx + 22) (macBytes coreMac) })
  | some (_, _) => (s, .ok skb)

/-- `nic->l2nat`: the table and the default host. -/
structure Station where
  table : Table
  defaultHost : Mac
  setByUser : Bool

/-- The destination of a frame. -/
def setDest (m : Nat → UInt8) (pmac : Option Mac) : Nat → UInt8 :=
  match pmac with
  | some mac => store m 0 (macBytes mac)
  | none => m

namespace Station

variable (k : Kernel) (s : Station)

/-- `mtlk_l2nat_user_set_def_host` -/
def userSetDefHost (mac : Mac) : Station × Bool :=
  if mac = 0 then ({ s with defaultHost := 0, setByUser := false }, true)
  else if !isValidEtherAddr mac then (s, false)
  else ({ s with defaultHost := mac, setByUser := true }, true)

/-- The default host, given what `mtlk_hstdb_get_default_host` finds. -/
def defHost (hstdb : Option Mac) : Option Mac :=
  if s.setByUser then some s.defaultHost else hstdb

/-- `mtlk_l2nat_on_rx`. There is no result when the headers do not end in the frame. -/
def onRx (hstdb : Option Mac) (m : Nat → UInt8) (len : Nat) (now : UInt32) :
    Option (Station × (Nat → UInt8)) :=
  if m 0 &&& 1 ≠ 0 then some (s, m)
  else
    let pmac := s.defHost hstdb
    match analyse len m (word m 12) 14 with
    | none => none
    | some (.pae, _) => some (s, m)
    | some (.ip, ip) =>
      let daddr := address m (ip + 16)
      some ({ s with table := s.table.onRxIp k (address m (ip + 12)) (macAt m 6) daddr now },
        setDest m ((s.table.hostOf k daddr).or pmac))
    | some (.arp, arp) =>
      if ¬EtherArp m arp then some (s, setDest m pmac)
      else
        let p := arp + 8
        let ip := address m (p + 16)
        match s.table.hostOf k ip with
        | none =>
          let table := s.table.genFakeArpReq k (address m (p + 6)) (macAt m p) ip now
          some ({ s with table := table }, setDest m pmac)
        | some mac =>
          if word m (arp + 6) = 2 then
            some (s, setDest (store m (p + 10) (macBytes mac)) (some mac))
          else if word m (arp + 6) = 1 then some (s, setDest m (some mac))
          else some (s, setDest m pmac)
    | some (.ipx, ipx) =>
      match pmac with
      | some mac => some (s, setDest (store m (ipx + 10) (macBytes mac)) pmac)
      | none => some (s, m)
    | some (.other, _) => some (s, setDest m pmac)

end Station

/-! ## What is learnt -/

/-- What comes to a station. -/
inductive Input where
  | tx (room : Option Room) (coreMac : Mac) (skb : SkBuff) (now first last : UInt32)
  | rx (hstdb : Option Mac) (m : Nat → UInt8) (len : Nat) (now : UInt32)
  | userSetDefHost (mac : Mac)
  | agingTimer (i : Index) (now : UInt32)
  | clearTable
  | setAgingTimeout (timeout : UInt32)

def Station.step (k : Kernel) (sums : Checksums) (s : Station) : Input → Station
  | .tx room coreMac skb now first last =>
    { s with table := (onTx k sums room coreMac s.table skb now first last).1 }
  | .rx hstdb m len now => ((s.onRx k hstdb m len now).map Prod.fst).getD s
  | .userSetDefHost mac => (s.userSetDefHost mac).1
  | .agingTimer i now => { s with table := s.table.agingTimer k i now }
  | .clearTable => { s with table := s.table.clearTable k }
  | .setAgingTimeout timeout => { s with table := { s.table with agingTimeout := timeout } }

def Station.init (agingTimeout start : UInt32) : Station :=
  ⟨.init agingTimeout start, 0, false⟩

/-- The host that sends a frame, by its IP packet or ARP header. -/
def sender (room : Option Room) (skb : SkBuff) : Option (UInt32 × Mac) :=
  match analyse skb.len skb.mem (word skb.mem 12) 14 with
  | some (.ip, ip) => some (address skb.mem (ip + 12), macAt skb.mem 6)
  | some (.arp, arp) =>
    if EtherArp skb.mem arp then
      match unshared room skb with
      | .error _ => none
      | .ok skb => some (address skb.mem (arp + 14), macAt skb.mem (arp + 8))
    else none
  | _ => none

/-- The host that has sent last from an address. -/
def learn (hosts : UInt32 → Option Mac) : Input → UInt32 → Option Mac
  | .tx room _ skb _ _ _ =>
    match sender room skb with
    | some (ip, mac) => Function.update hosts ip (some mac)
    | none => hosts
  | _ => hosts

end Wave300.L2nat
