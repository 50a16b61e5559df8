import Mathlib.Data.List.Basic

/-!
# The cache of scanned BSSs

The list of `scan_cache_t` with its cursor, and the operations on it. Each of them holds the lock of
the cache. An entry is known by its address, and memory for an entry is found at an address that no
entry has, or not at all. Of `bss_data_t` there are the fields that the cache reads.
-/

namespace Wave300.Cache

abbrev Bssid := BitVec 48

structure BssData where
  bssid : Bssid
  channel : UInt16
  maxRssi : UInt8
  essid : Vector UInt8 33
  countryIe : Option (List UInt8)
  is24 : UInt8
  deriving DecidableEq

structure CacheEntry where
  addr : Nat
  /-- In ms. -/
  localTimestamp : UInt32
  isPersistent : Bool
  freq : UInt8
  bss : BssData
  deriving DecidableEq

structure ScanCache where
  /-- In seconds. -/
  cacheExpire : UInt32
  curEntry : Option Nat
  bssList : List CacheEntry
  modified : Bool
  deriving DecidableEq

/-- What a received frame or a caller brings: the memory that is found for an entry and for its
country IE, and the time. -/
structure Env where
  entryMem : Option Nat
  countryMem : Bool
  now : UInt32
  deriving DecidableEq

/-- The loop that places a BSS sorted by channel and RSSI. -/
def insertSorted (slot : CacheEntry) : List CacheEntry → List CacheEntry
  | [] => [slot]
  | place :: rest =>
    if place.bss.channel < slot.bss.channel then place :: insertSorted slot rest
    else if place.bss.channel = slot.bss.channel then
      if place.bss.maxRssi < slot.bss.maxRssi then slot :: place :: rest
      else place :: insertSorted slot rest
    else slot :: place :: rest

namespace ScanCache

def init (expire : UInt32) : ScanCache := ⟨expire, none, [], false⟩

def addrs (s : ScanCache) : List Nat := s.bssList.map (·.addr)

/-- The first entry with a BSSID. -/
def find (s : ScanCache) (bssid : Bssid) : Option CacheEntry :=
  s.bssList.find? (·.bss.bssid = bssid)

/-- The list without the first entry with a BSSID. -/
def without (s : ScanCache) (bssid : Bssid) : List CacheEntry :=
  s.bssList.eraseP (·.bss.bssid = bssid)

def memAlloc (s : ScanCache) (mem : Option Nat) : Option Nat := mem.filter (· ∉ s.addrs)

/-- The end of `mtlk_cache_register_bss`, with the slot that was found or allocated. -/
def place (s : ScanCache) (list : List CacheEntry) (addr : Nat) (bss : BssData) (env : Env) :
    ScanCache :=
  let slot : CacheEntry :=
    { addr := addr
      localTimestamp := env.now
      isPersistent := false
      freq := bss.is24
      bss := { bss with countryIe := if env.countryMem then bss.countryIe else none } }
  { s with bssList := insertSorted slot list, modified := true }

/-- `mtlk_cache_register_bss`. The ESSID of an active scan is preserved. -/
def registerBss (s : ScanCache) (bss : BssData) (env : Env) : ScanCache :=
  match s.find bss.bssid with
  | some slot =>
    let bss := if bss.essid[0] = 0 then { bss with essid := slot.bss.essid } else bss
    s.place (s.without bss.bssid) slot.addr bss env
  | none =>
    match s.memAlloc env.entryMem with
    | some addr => s.place s.bssList addr bss env
    | none => s

def clear (s : ScanCache) : ScanCache :=
  { s with bssList := [], modified := true, curEntry := none }

def clearExceptEntry (s : ScanCache) (bssid : Bssid) : ScanCache :=
  match (s.bssList.filter (·.bss.bssid = bssid)).getLast? with
  | some saved => { s with bssList := [saved], modified := true, curEntry := some saved.addr }
  | none => { s with bssList := [], modified := true, curEntry := none }

def rewind (s : ScanCache) : ScanCache :=
  { s with curEntry := s.bssList.head?.map (·.addr) }

def expired (s : ScanCache) (now : UInt32) (entry : CacheEntry) : Bool :=
  s.cacheExpire ≠ 0 ∧ now - entry.localTimestamp > s.cacheExpire * 1000 ∧
    entry.isPersistent = false

/-- The loop of `mtlk_cache_get_next_bss`, from the entry under the cursor: the entries that are
left of the list. The first of them is returned. -/
def removeExpired (s : ScanCache) (now : UInt32) : List CacheEntry → List CacheEntry
  | [] => []
  | entry :: rest => if s.expired now entry then s.removeExpired now rest else entry :: rest

/-- `mtlk_cache_get_next_bss`, with the entry that is copied to the caller. -/
def getNextBss (s : ScanCache) (now : UInt32) : ScanCache × Option CacheEntry :=
  match s.curEntry with
  | none => (s, none)
  | some cur =>
    let before := s.bssList.takeWhile (·.addr ≠ cur)
    let rest := s.bssList.dropWhile (·.addr ≠ cur)
    -- The cursor is not in the list: the source checks for it just in case.
    if rest = [] then ({ s with curEntry := none }, none)
    else
      let left := s.removeExpired now rest
      ({ s with
          bssList := before ++ left
          modified := s.modified || decide (left.length < rest.length)
          curEntry := left.tail.head?.map (·.addr) }, left.head?)

def removeBssByBssid (s : ScanCache) (bssid : Bssid) : ScanCache :=
  match s.find bssid with
  | some entry =>
    { s with
      bssList := s.without bssid
      modified := true
      curEntry := if s.curEntry = some entry.addr then none else s.curEntry }
  | none => s

def deleteCurrent (s : ScanCache) : ScanCache :=
  match s.curEntry with
  | some cur =>
    if cur ∈ s.addrs then
      { s with bssList := s.bssList.eraseP (·.addr = cur), modified := true, curEntry := none }
    else { s with curEntry := none }
  | none => s

/-- The loop of `mtlk_cache_set_persistent`. -/
def markPersistent (bssid : Bssid) (isPersistent : Bool) (now : UInt32) :
    List CacheEntry → List CacheEntry
  | [] => []
  | entry :: rest =>
    if entry.bss.bssid = bssid then
      { entry with localTimestamp := now, isPersistent := isPersistent } :: rest
    else entry :: markPersistent bssid isPersistent now rest

def setPersistent (s : ScanCache) (bssid : Bssid) (isPersistent : Bool) (now : UInt32) :
    ScanCache :=
  { s with bssList := markPersistent bssid isPersistent now s.bssList }

inductive Event where
  | registerBss (bss : BssData) (env : Env)
  | clear
  | clearExceptEntry (bssid : Bssid)
  | rewind
  | getNextBss (now : UInt32)
  | removeBssByBssid (bssid : Bssid)
  | deleteCurrent
  | setPersistent (bssid : Bssid) (isPersistent : Bool) (now : UInt32)
  | setExpirationTime (expire : UInt32)
  | clearModifiedFlag
  deriving DecidableEq

def step (s : ScanCache) : Event → ScanCache
  | .registerBss bss env => s.registerBss bss env
  | .clear => s.clear
  | .clearExceptEntry bssid => s.clearExceptEntry bssid
  | .rewind => s.rewind
  | .getNextBss now => (s.getNextBss now).1
  | .removeBssByBssid bssid => s.removeBssByBssid bssid
  | .deleteCurrent => s.deleteCurrent
  | .setPersistent bssid isPersistent now => s.setPersistent bssid isPersistent now
  | .setExpirationTime expire => { s with cacheExpire := expire }
  | .clearModifiedFlag => { s with modified := false }

end ScanCache

end Wave300.Cache
