import Wave300.Hash.Enumeration

/-!
# Hosts behind stations

`stadb.c`, the host database: the hosts known, each with the station it is behind. A host that is
started holds a reference on its station and remembers the station's address; when it is stopped it
gives the reference back and keeps the address.

The hosts are listed in the order in which the hash is gone through. What a host holds and the two
counters of each station are not kept by the driver: they record what the calls of
`mtlk_sta_incref` and `mtlk_sta_decref` come to.
-/

namespace Wave300.Hstdb

abbrev Addr := Fin 6 → UInt8

/-- `sta_entry`, of which two may have the same address. -/
structure Sta where
  id : Nat
  addr : Addr
  deriving DecidableEq

structure Host where
  addr : Addr
  timestamp : UInt32
  sta : Option Sta
  staAddr : Addr
  startStaRef : Bool
  startWdsTimer : Bool
  held : List Sta
  deriving DecidableEq

/-- The references hosts have taken on each station and those they have released. -/
structure Refs where
  taken : Sta → Nat
  released : Sta → Nat

def Refs.incref (r : Refs) (s : Sta) : Refs :=
  { r with taken := Function.update r.taken s (r.taken s + 1) }

def Refs.decref (r : Refs) (s : Sta) : Refs :=
  { r with released := Function.update r.released s (r.released s + 1) }

/-- What the system answers to the calls made for a host: the time, whether its timer is set, and
for a new host whether it is allocated and its timer initialised. -/
structure Env where
  timestamp : Addr → UInt32
  timerSet : Addr → Bool
  memAlloc : Bool
  timerInit : Bool

/-- The system gives what it is asked for, and the clock stands still. -/
def calm : Env := ⟨fun _ => 0, fun _ => true, true, true⟩

/-- `hst_db` -/
structure Db where
  hosts : List Host
  wdsHostTimeout : UInt32
  defaultHost : Addr
  localMac : Addr
  refs : Refs

/-- `_mtlk_hst_stop`: the steps that were done are undone. -/
def hstStop (r : Refs) (h : Host) : Refs × Host :=
  let undone : Refs × Host :=
    match h.startStaRef, h.sta with
    | true, some s => (r.decref s, { h with held := h.held.erase s })
    | _, _ => (r, h)
  (undone.1, { undone.2 with sta := none, startStaRef := false, startWdsTimer := false })

/-- `_mtlk_hst_start`: `MTLK_START_TRY` forgets which steps were done before. -/
def hstStart (env : Env) (s : Sta) (r : Refs) (h : Host) : Refs × Host :=
  let started : Host :=
    { h with
      timestamp := env.timestamp h.addr
      sta := some s
      staAddr := s.addr
      startStaRef := true
      startWdsTimer := env.timerSet h.addr
      held := s :: h.held }
  if env.timerSet h.addr then (r.incref s, started) else hstStop (r.incref s) started

/-- `_mtlk_hst_update` -/
def hstUpdate (env : Env) (s : Sta) (r : Refs) (h : Host) : Refs × Host :=
  if h.sta = some s then (r, { h with timestamp := env.timestamp h.addr })
  else
    let stopped := if h.sta.isSome then hstStop r h else (r, h)
    hstStart env s stopped.1 stopped.2

/-- `_mtlk_hst_init` -/
def hstInit (mac : Addr) : Host :=
  ⟨mac, 0, none, fun _ => 0, false, false, []⟩

/-- The bucket of the sixteen a host is in. -/
def bucket (mac : Addr) : Nat :=
  Hash.ieeeAddr.hash mac 16

/-- `mtlk_hash_insert` of a new host: behind the last one of its bucket. -/
def hashInsert (h : Host) : List Host → List Host
  | [] => [h]
  | x :: l => if bucket x.addr ≤ bucket h.addr then x :: hashInsert h l else h :: x :: l

/-- `mtlk_hash_find` -/
def hashFind (mac : Addr) (l : List Host) : Option Host :=
  l.find? fun h => h.addr = mac

/-- `mtlk_hash_remove` -/
def hashRemove (mac : Addr) (l : List Host) : List Host :=
  l.eraseP fun h => h.addr = mac

/-- A loop over the hosts that are behind a station, or of another kind, and may change them. -/
def forEach (p : Host → Bool) (f : Refs → Host → Refs × Host) : Refs → List Host → Refs × List Host
  | r, [] => (r, [])
  | r, h :: l =>
    let done := if p h then f r h else (r, h)
    let rest := forEach p f done.1 l
    (rest.1, done.2 :: rest.2)

/-- `is_valid_ether_addr` -/
def isValidEtherAddr (mac : Addr) : Bool :=
  mac ⟨0, by decide⟩ &&& 1 = 0 ∧ mac ≠ fun _ => 0

/-- The loop of `_mtlk_hstdb_recalc_default_host_unsafe` -/
def newestHost (env : Env) : List Host → Option Host → UInt32 → Option Host
  | [], newest, _ => newest
  | h :: l, newest, smallestDiff =>
    let diff := env.timestamp h.addr - h.timestamp
    if h.sta ≠ none ∧ diff < smallestDiff then newestHost env l (some h) diff
    else newestHost env l newest smallestDiff

namespace Db

/-- `_mtlk_hstdb_recalc_default_host_unsafe` -/
def recalcDefaultHost (env : Env) (db : Db) : Db :=
  { db with
    defaultHost :=
      match newestHost env db.hosts none 0xFFFFFFFF with
      | none => fun _ => 0
      | some h => h.addr }

/-- `mtlk_hstdb_update_default_host` -/
def updateDefaultHost (mac : Addr) (db : Db) : Db :=
  if isValidEtherAddr db.defaultHost = false ∨ db.defaultHost = db.localMac then
    { db with defaultHost := mac }
  else db

/-- `_mtlk_hstdb_add_host` -/
def addHost (env : Env) (mac : Addr) (s : Sta) (db : Db) : Db :=
  if env.memAlloc = false ∨ env.timerInit = false then db
  else
    let started := hstStart env s db.refs (hstInit mac)
    if env.timerSet mac = false then { db with refs := started.1 }
    else
      match hashFind mac db.hosts with
      | some _ => { db with refs := (hstStop started.1 started.2).1 }
      | none =>
        updateDefaultHost mac { db with refs := started.1, hosts := hashInsert started.2 db.hosts }

/-- `mtlk_hstdb_update_host` -/
def updateHost (env : Env) (mac : Addr) (s : Sta) (db : Db) : Db :=
  match hashFind mac db.hosts with
  | some _ =>
    let swept := forEach (fun h => h.addr = mac) (hstUpdate env s) db.refs db.hosts
    { db with refs := swept.1, hosts := swept.2 }
  | none => db.addHost env mac s

/-- `_mtlk_hstdb_remove_host_unsafe`: the references after the host was stopped, if it has a
station, and freed. -/
def freeHost (r : Refs) (h : Host) : Refs :=
  if h.sta.isSome then (hstStop r h).1 else r

/-- `_mtlk_hstdb_remove_host` of a host of the database -/
def removeHost (env : Env) (h : Host) (db : Db) : Db :=
  let removed := { db with hosts := hashRemove h.addr db.hosts }
  let recalculated := if db.defaultHost = h.addr then removed.recalcDefaultHost env else removed
  { recalculated with refs := freeHost db.refs h }

/-- `mtlk_hstdb_remove_host_by_addr` -/
def removeHostByAddr (mac : Addr) (db : Db) : Db :=
  match hashFind mac db.hosts with
  | some h => { db with hosts := hashRemove mac db.hosts, refs := freeHost db.refs h }
  | none => db

/-- The loop of `mtlk_hstdb_remove_all_by_sta`: the references, whether the default host was
removed, and the hosts left. -/
def removeLoop (s : Sta) (defaultHost : Addr) : Refs → Bool → List Host → Refs × Bool × List Host
  | r, recalc, [] => (r, recalc, [])
  | r, recalc, h :: l =>
    if h.sta = some s then
      removeLoop s defaultHost (freeHost r h) (recalc || decide (defaultHost = h.addr)) l
    else
      let rest := removeLoop s defaultHost r recalc l
      (rest.1, rest.2.1, h :: rest.2.2)

/-- `mtlk_hstdb_remove_all_by_sta` -/
def removeAllBySta (env : Env) (s : Sta) (db : Db) : Db :=
  let removed := removeLoop s db.defaultHost db.refs false db.hosts
  let db' := { db with refs := removed.1, hosts := removed.2.2 }
  if removed.2.1 then db'.recalcDefaultHost env else db'

/-- `mtlk_hstdb_stop_all_by_sta` -/
def stopAllBySta (s : Sta) (db : Db) : Db :=
  let swept := forEach (fun h => h.sta = some s) hstStop db.refs db.hosts
  { db with refs := swept.1, hosts := swept.2 }

/-- `mtlk_hstdb_start_all_by_sta`: by the address a host remembers. -/
def startAllBySta (env : Env) (s : Sta) (db : Db) : Db :=
  let swept := forEach (fun h => h.staAddr = s.addr) (hstStart env s) db.refs db.hosts
  { db with refs := swept.1, hosts := swept.2 }

/-- `mtlk_host_wds_disconnect_tmr` of a host of the database; a time of the clock is in
milliseconds by `toMs`. -/
def wdsDisconnectTmr (env : Env) (toMs : UInt32 → UInt32) (h : Host) (db : Db) : Db :=
  if h.sta = none then db.removeHost env h
  else if db.wdsHostTimeout * 1000 = 0 then db
  else if db.wdsHostTimeout * 1000 ≤ toMs (env.timestamp h.addr - h.timestamp) then
    db.removeHost env h
  else db

end Db

inductive Op where
  | updateHost (mac : Addr) (s : Sta)
  | addHost (mac : Addr) (s : Sta)
  | removeHost (mac : Addr)
  | removeHostByAddr (mac : Addr)
  | removeAllBySta (s : Sta)
  | stopAllBySta (s : Sta)
  | startAllBySta (s : Sta)
  | wdsDisconnectTmr (mac : Addr) (toMs : UInt32 → UInt32)

/-- An operation and what the system answers during it. -/
abbrev Call := Op × Env

/-- The entry of a host is that of a host of the database, whoever has it. -/
def step (db : Db) : Call → Db
  | (.updateHost mac s, env) => db.updateHost env mac s
  | (.addHost mac s, env) => db.addHost env mac s
  | (.removeHost mac, env) =>
    match hashFind mac db.hosts with
    | some h => db.removeHost env h
    | none => db
  | (.removeHostByAddr mac, _) => db.removeHostByAddr mac
  | (.removeAllBySta s, env) => db.removeAllBySta env s
  | (.stopAllBySta s, _) => db.stopAllBySta s
  | (.startAllBySta s, env) => db.startAllBySta env s
  | (.wdsDisconnectTmr mac toMs, env) =>
    match hashFind mac db.hosts with
    | some h => db.wdsDisconnectTmr env toMs h
    | none => db

/-- `mtlk_hstdb_init`, in memory that was cleared, with the parameters that are configured. -/
def Db.init (localMac : Addr) (wdsHostTimeout : UInt32) : Db where
  hosts := []
  wdsHostTimeout
  defaultHost := fun _ => 0
  localMac
  refs := ⟨fun _ => 0, fun _ => 0⟩

section Order
variable {h : Host} {l l' : List Host}

theorem hashInsert_append (low : ∀ x ∈ l, bucket x.addr ≤ bucket h.addr) :
    hashInsert h (l ++ l') = l ++ hashInsert h l' := by
  induction l with
  | nil => rfl
  | cons x l ih =>
    rw [List.cons_append, hashInsert, if_pos (low x List.mem_cons_self),
      ih fun y mem => low y (List.mem_cons_of_mem _ mem), List.cons_append]

theorem hashInsert_high (high : ∀ x ∈ l, bucket h.addr < bucket x.addr) :
    hashInsert h l = h :: l := by
  cases l with
  | nil => rfl
  | cons x l => exact if_neg (Nat.not_le.2 (high x List.mem_cons_self))

/-- The place of a new host is where going through the hash comes to it once it is linked into its
bucket. -/
theorem hashInsert_entries (h : Host) {lists : Nat → List Host}
    (home : ∀ i, ∀ x ∈ lists i, bucket x.addr = i) :
    Hash.entriesFrom (Function.update lists (bucket h.addr) (lists (bucket h.addr) ++ [h])) 16 0 =
      hashInsert h (Hash.entriesFrom lists 16 0) := by
  have lt : bucket h.addr < 16 := Hash.ieeeAddr.lt h.addr 16 (by decide)
  obtain ⟨d, eq⟩ := Nat.exists_eq_add_of_lt lt
  have range : List.range' 0 16 =
      List.range' 0 (bucket h.addr) ++ bucket h.addr :: List.range' (bucket h.addr + 1) d := by
    rw [← List.range'_succ, eq, Nat.add_assoc, ← List.range'_append_1, Nat.zero_add]
  simp only [Hash.entriesFrom, Nat.sub_zero, range, List.flatMap_append, List.flatMap_cons,
    Function.update_self]
  have before : (List.range' 0 (bucket h.addr)).flatMap
      (Function.update lists (bucket h.addr) (lists (bucket h.addr) ++ [h])) =
        (List.range' 0 (bucket h.addr)).flatMap lists := by
    apply List.flatMap_congr
    intro i mem
    have := (List.mem_range'_1.1 mem).2
    rw [Function.update_of_ne (by omega)]
  have behind : (List.range' (bucket h.addr + 1) d).flatMap
      (Function.update lists (bucket h.addr) (lists (bucket h.addr) ++ [h])) =
        (List.range' (bucket h.addr + 1) d).flatMap lists := by
    apply List.flatMap_congr
    intro i mem
    have := (List.mem_range'_1.1 mem).1
    rw [Function.update_of_ne (by omega)]
  rw [before, behind, hashInsert_append, hashInsert_append, hashInsert_high, List.append_assoc,
    List.singleton_append]
  · intro x mem
    obtain ⟨i, range, mem⟩ := List.mem_flatMap.1 mem
    have := (List.mem_range'_1.1 range).1
    have := home i x mem
    omega
  · intro x mem
    exact Nat.le_of_eq (home _ x mem)
  · intro x mem
    obtain ⟨i, range, mem⟩ := List.mem_flatMap.1 mem
    have := (List.mem_range'_1.1 range).2
    have := home i x mem
    omega

end Order

end Wave300.Hstdb
