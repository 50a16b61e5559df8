import Mathlib.Data.List.FinRange
import Mathlib.Logic.Function.Basic

/-!
# The L2NAT table

The table of the IP and MAC addresses behind a station: 17 entries, each on the free or on the
active list, and a hash array of 16 buckets with 17 slots each. A slot is empty or has the index of
an entry. Every operation holds `l2nat_lock`. The hash of an address and the length of a second are
those of the kernel. `jiffies` comes with each operation, and with `check_and_add_entry` as often as
it is read there.
-/

namespace Wave300.L2nat

abbrev Mac := BitVec 48

/-- `L2NAT_NUM_ENTRIES`. -/
abbrev numEntries : Nat := 17

/-- `L2NAT_BUCKET_SIZE`. -/
abbrev bucketSize : Nat := 17

/-- `L2NAT_BUCKETS_NUM`. -/
abbrev bucketsNum : Nat := 16

abbrev Index := Fin numEntries

abbrev Slot := Fin bucketSize

abbrev Bucket := Slot → Option Index

structure Kernel where
  /-- `hash_ip`. -/
  hashIp : UInt32 → UInt32
  hz : UInt32

/-- The bucket of an address. -/
def Kernel.bucketOf (k : Kernel) (ip : UInt32) : Fin bucketsNum :=
  ⟨(k.hashIp ip &&& 15).toNat, by
    rw [UInt32.toNat_and]
    exact Nat.lt_succ_of_le Nat.and_le_right⟩

structure HashEntry where
  ip : UInt32
  mac : Mac
  active : Bool
  stopAgingTimer : Bool
  pktsFrom : UInt32
  lastPktTimestamp : UInt32
  firstPktTimestamp : UInt32
  /-- When the timer expires. -/
  timer : Option UInt32
  deriving DecidableEq

/-- The fake ARP requests are those that were sent, with the addresses they come from. -/
structure Table where
  entries : Index → HashEntry
  freeEntries : List Index
  activeEntries : List Index
  hash : Fin bucketsNum → Bucket
  agingTimeout : UInt32
  needArpInfo : Bool
  macForArp : Mac
  ipForArp : UInt32
  lastArpSentTimestamp : UInt32
  arpReqs : List (UInt32 × Mac × UInt32)

/-- What the loop of `delete_entry` over a bucket has come to. -/
structure Scan where
  bucket : Bucket
  lastUsed : Option Slot
  justFreed : Option Slot

def scanSlot (delInd : Index) (r : Scan) (i : Slot) : Scan :=
  if r.bucket i = some delInd then
    { r with
      bucket := Function.update r.bucket i none
      justFreed := r.justFreed.or (some i) }
  else if r.bucket i ≠ none then { r with lastUsed := some i }
  else r

def scanSlots (delInd : Index) (bucket : Bucket) : Scan :=
  (List.finRange bucketSize).foldl (scanSlot delInd) ⟨bucket, none, none⟩

/-- The last used slot is moved into the one just freed. -/
def Scan.compact (r : Scan) : Bucket :=
  match r.lastUsed, r.justFreed with
  | some last, some freed =>
    if freed < last then
      Function.update (Function.update r.bucket freed (r.bucket last)) last none
    else r.bucket
  | _, _ => r.bucket

/-- The bucket of an entry that is deleted. -/
def clearSlots (delInd : Index) (bucket : Bucket) : Bucket := (scanSlots delInd bucket).compact

/-- What `check_and_add_entry` does. -/
inductive Outcome where
  | updated
  | added
  | zeroIp
  | noLru
  /-- The assertion that there is a free entry fails. -/
  | noFree
  | bucketFull
  deriving DecidableEq, Repr

namespace Table

variable (k : Kernel)

def init (agingTimeout now : UInt32) : Table where
  entries := fun _ => ⟨0, 0, false, false, 0, 0, 0, none⟩
  freeEntries := List.finRange numEntries
  activeEntries := []
  hash := fun _ _ => none
  agingTimeout := agingTimeout
  needArpInfo := false
  macForArp := 0
  ipForArp := 0
  lastArpSentTimestamp := now
  arpReqs := []

def set (s : Table) (i : Index) (ent : HashEntry) : Table :=
  { s with entries := Function.update s.entries i ent }

def deleteEntry (s : Table) (delInd : Index) : Table :=
  let dent := { s.entries delInd with stopAgingTimer := true, timer := none }
  if dent.active = false then s.set delInd dent
  else
    let bucket := k.bucketOf dent.ip
    { s.set delInd { dent with pktsFrom := 0, active := false } with
      activeEntries := s.activeEntries.erase delInd
      freeEntries := delInd :: s.freeEntries
      hash := Function.update s.hash bucket (clearSlots delInd (s.hash bucket)) }

def findEntry (s : Table) (ip : UInt32) : Option Index :=
  (List.finRange bucketSize).findSome? fun i =>
    (s.hash (k.bucketOf ip) i).filter fun ent =>
      (s.entries ent).active ∧ (s.entries ent).ip = ip

/-- The age of an entry. -/
def delta (s : Table) (now : UInt32) (i : Index) : UInt32 := now - (s.entries i).lastPktTimestamp

/-- The loop that looks for the least recently used entry, with its age. -/
def older (s : Table) (now : UInt32) (oldest : Option Index × UInt32) (i : Index) :
    Option Index × UInt32 :=
  if s.delta now i > oldest.2 then (some i, s.delta now i) else oldest

def findOldest (s : Table) (now : UInt32) : Option Index :=
  ((List.finRange numEntries).foldl (s.older now) (none, 0)).1

/-- The end of `check_and_add_entry`. -/
def updateEntry (s : Table) (i : Index) (mac : Mac) (now : UInt32) : Table :=
  let ent := s.entries i
  s.set i { ent with mac := mac, lastPktTimestamp := now, pktsFrom := ent.pktsFrom + 1 }

/-- An entry is taken from the free list for an address. -/
def addEntry (s : Table) (ip : UInt32) (mac : Mac) (first last : UInt32) : Table × Outcome :=
  match s.freeEntries with
  | [] => (s, .noFree)
  | i :: free =>
    let bucket := k.bucketOf ip
    match (List.finRange bucketSize).find? (s.hash bucket · = none) with
    | none => (s.set i { s.entries i with active := false }, .bucketFull)
    | some slot =>
      let interval := s.agingTimeout - k.hz * (10 + 10)
      let ent :=
        { s.entries i with
          ip := ip
          active := true
          stopAgingTimer := false
          firstPktTimestamp := first
          timer := if s.agingTimeout ≠ 0 then some (first + interval) else (s.entries i).timer }
      let t :=
        { s.set i ent with
          freeEntries := free
          activeEntries := s.activeEntries ++ [i]
          hash := Function.update s.hash bucket
            (Function.update (s.hash bucket) slot (some i)) }
      (t.updateEntry i mac last, .added)

/-- `check_and_add_entry`. -/
def checkAndAddEntry (s : Table) (ip : UInt32) (mac : Mac) (now first last : UInt32) :
    Table × Outcome :=
  match s.findEntry k ip with
  | some i => (s.updateEntry i mac last, .updated)
  | none =>
    if ip = 0 then (s, .zeroIp)
    else if s.freeEntries = [] then
      match s.findOldest now with
      | none => (s, .noLru)
      | some oldest => (s.deleteEntry k oldest).addEntry k ip mac first last
    else s.addEntry k ip mac first last

/-- `gen_fake_arp_req`. -/
def genFakeArpReq (s : Table) (sip : UInt32) (smac : Mac) (dip now : UInt32) : Table :=
  if sip = 0 ∨ dip = 0 then s
  else if now - s.lastArpSentTimestamp < k.hz / 3 then s
  else { s with arpReqs := (sip, smac, dip) :: s.arpReqs, lastArpSentTimestamp := now }

def modTimer (s : Table) (i : Index) (expires : UInt32) : Table :=
  s.set i { s.entries i with timer := some expires }

/-- `entry_aging_timer_function`. -/
def agingTimer (s : Table) (i : Index) (now : UInt32) : Table :=
  if s.agingTimeout = 0 then s
  else if (s.entries i).stopAgingTimer then
    s.set i { s.entries i with stopAgingTimer := false }
  else
    let delta := s.delta now i
    let sendArpTimeout := s.agingTimeout - 10 * k.hz
    let getInfoTimeout := sendArpTimeout - 10 * k.hz
    if delta ≥ s.agingTimeout then s.deleteEntry k i
    else if delta < getInfoTimeout then s.modTimer i (now + (getInfoTimeout - delta))
    else if delta < sendArpTimeout then
      { s with needArpInfo := true }.modTimer i (now + 10 * k.hz)
    else
      (s.genFakeArpReq k s.ipForArp s.macForArp (s.entries i).ip now).modTimer i (now + 10 * k.hz)

def clearTable (s : Table) : Table := (List.finRange numEntries).foldl (deleteEntry k) s

/-- What `mtlk_l2nat_on_rx` does to the table for an IP packet: the addresses for the ARP requests
are taken from it, or a request is sent for an address that is not in the table. -/
def onRxIp (s : Table) (saddr : UInt32) (source : Mac) (daddr now : UInt32) : Table :=
  match s.findEntry k daddr with
  | none => s.genFakeArpReq k saddr source daddr now
  | some _ =>
    if s.needArpInfo then { s with macForArp := source, ipForArp := saddr, needArpInfo := false }
    else s

inductive Event where
  | checkAndAddEntry (ip : UInt32) (mac : Mac) (now first last : UInt32)
  | deleteEntry (i : Index)
  | agingTimer (i : Index) (now : UInt32)
  | clearTable
  | setAgingTimeout (timeout : UInt32)
  | onRxIp (saddr : UInt32) (source : Mac) (daddr now : UInt32)

def step (s : Table) : Event → Table
  | .checkAndAddEntry ip mac now first last => (s.checkAndAddEntry k ip mac now first last).1
  | .deleteEntry i => s.deleteEntry k i
  | .agingTimer i now => s.agingTimer k i now
  | .clearTable => s.clearTable k
  | .setAgingTimeout timeout => { s with agingTimeout := timeout }
  | .onRxIp saddr source daddr now => s.onRxIp k saddr source daddr now

end Table

end Wave300.L2nat
