import Mathlib.Data.Fintype.Basic
import Mathlib.Logic.Function.Basic

/-!
# Rounds of firmware recovery

`rcvry_initiate` puts a task into the serializer of each VAP: `master_recovery` for the master VAP,
`slave_recovery` for each of the `n` others. The master waits until every slave is blocked in its
task, recovers, and releases them. When a round fails the master initiates the next one itself.

A section under `rcvry->lock` is one step, but for the end of `rcvry_initiate`, which waits for
`slave_rlse_mutex` and schedules the tasks one by one with the lock held. The two mutexes are
counting semaphores.
-/

namespace Wave300.Recovery

inductive RcvryType where
  | none
  | fast
  | full
  | complete
  | undef
  deriving DecidableEq, Repr

structure RcvryCfg where
  fastRcvryNum : UInt8
  fullRcvryNum : UInt8
  completeRcvry : UInt8
  failTimeInterval : UInt32
  fwDump : UInt8
  deriving DecidableEq, Repr

/-- The configuration that `_rcvry_init` sets. -/
def defaultCfg : RcvryCfg := ⟨3, 1, 0, 60000, 1⟩

/-- How the allocations of `_rcvry_vap_info_create` end. -/
inductive Alloc where
  | ok
  /-- There is no memory for the array. -/
  | noArray
  /-- There is no memory for one of its entries. -/
  | noInfo
  deriving DecidableEq, Repr

/-- The start steps of `master_recovery`. -/
inductive Stage where
  | isolation
  | fwDump
  | restoration
  | configuration
  | finalization
  deriving DecidableEq, Repr

/-- What the serializer of the master VAP does next in `master_recovery`. -/
inductive Master where
  | idle
  /-- It has acquired `slave_sync_mutex` `k` times. -/
  | sync (k : Nat)
  /-- It releases `slave_sync_mutex` once. -/
  | syncBack
  | begin
  | work (stage : Stage) (type : RcvryType)
  /-- It has released `slave_rlse_mutex` `k` times. -/
  | release (type : RcvryType) (res : Bool) (k : Nat)
  | finish (type : RcvryType) (res : Bool)
  | onError (type : RcvryType)
  /-- `rcvry_initiate` goes on for it. -/
  | returning (type : RcvryType)
  deriving DecidableEq, Repr

/-- What the thread that initiates a round does next. It has the lock, but for `none`. -/
inductive Initiator where
  | none
  | acquire
  /-- It schedules the task of the VAP `v`; the master VAP is number 0. -/
  | schedule (v : Nat)
  deriving DecidableEq, Repr

inductive Phase where
  | idle
  /-- It has looked up its entry in the table. -/
  | started
  /-- It has released `slave_sync_mutex`. -/
  | synced
  deriving DecidableEq, Repr

/-- The serializer of a slave VAP: how many tasks it was given, how many it is through with, and
where it is in the next one. -/
structure Slave where
  scheduled : Nat
  passed : Nat
  phase : Phase
  deriving DecidableEq, Repr

/-- The tasks that are put into serializers. -/
inductive Task (n : Nat) where
  | master
  | slave (i : Fin n)
  | fwDump
  | complete
  | finish
  deriving DecidableEq, Repr

/-- From `round` on the fields are not in the source: the rounds initiated, the chains of rounds,
the chains for which a table was allocated and freed, the types chosen, and the tasks scheduled. A
table is known by its chain. -/
structure Rcvry (n : Nat) where
  isAp : Bool
  cfg : RcvryCfg
  fastRcvryCnt : UInt8
  fullRcvryCnt : UInt8
  forcedRcvryType : RcvryType
  currentRcvryType : RcvryType
  vapInfo : Option Nat
  slaveSync : Nat
  slaveRlse : Nat
  failTimer : Bool
  errorOnRcvry : Bool
  isScheduled : Bool
  master : Master
  masterScheduled : Nat
  masterDone : Nat
  slaves : Fin n → Slave
  initiator : Initiator
  round : Nat
  chain : Nat
  allocs : List Nat
  frees : List Nat
  types : List RcvryType
  tasks : List (Task n)

namespace Rcvry

variable {n : Nat}

def init (n : Nat) (isAp : Bool) (cfg : RcvryCfg) : Rcvry n where
  isAp := isAp
  cfg := cfg
  fastRcvryCnt := 0
  fullRcvryCnt := 0
  forcedRcvryType := .undef
  currentRcvryType := .undef
  vapInfo := none
  slaveSync := 1
  slaveRlse := 1
  failTimer := false
  errorOnRcvry := false
  isScheduled := false
  master := .idle
  masterScheduled := 0
  masterDone := 0
  slaves := fun _ => ⟨0, 0, .idle⟩
  initiator := .none
  round := 0
  chain := 0
  allocs := []
  frees := []
  types := []
  tasks := []

/-- `_rcvry_determine_type`. -/
def determineType (s : Rcvry n) : Rcvry n :=
  if s.isAp = false then
    { s with currentRcvryType := if s.cfg.completeRcvry ≠ 0 then .complete else .none }
  else if s.forcedRcvryType ≠ .undef then
    { s with currentRcvryType := s.forcedRcvryType, forcedRcvryType := .undef }
  else if s.fastRcvryCnt < s.cfg.fastRcvryNum then
    { s with fastRcvryCnt := s.fastRcvryCnt + 1, currentRcvryType := .fast }
  else if s.fullRcvryCnt < s.cfg.fullRcvryNum then
    { s with fullRcvryCnt := s.fullRcvryCnt + 1, currentRcvryType := .full }
  else if s.cfg.completeRcvry ≠ 0 then { s with currentRcvryType := .complete }
  else { s with currentRcvryType := .none }

/-- The type of the next round is determined. -/
def chooseType (s : Rcvry n) : Rcvry n :=
  { s.determineType with types := s.types ++ [s.determineType.currentRcvryType] }

/-- `_rcvry_vap_info_cleanup`. The pointer to the table is left as it is. -/
def vapInfoCleanup (s : Rcvry n) : Rcvry n :=
  { s with frees := s.vapInfo.toList ++ s.frees }

/-- `_rcvry_vap_info_create`, for a new chain. -/
def vapInfoCreate (s : Rcvry n) : Alloc → Rcvry n
  | .ok => { s with vapInfo := some s.chain, allocs := s.chain :: s.allocs }
  | .noArray => { s with vapInfo := none }
  | .noInfo =>
    { s with
      vapInfo := some s.chain
      allocs := s.chain :: s.allocs
      frees := s.chain :: s.frees }

/-- The end of `rcvry_initiate` when there is nothing to recover with. -/
def giveUp (s : Rcvry n) : Rcvry n :=
  let dump : List (Task n) := if s.cfg.fwDump ≠ 0 then [.fwDump] else []
  let last : Task n := if s.currentRcvryType = .complete then .complete else .finish
  let s := { s with tasks := s.tasks ++ dump ++ [last] }
  let s := if s.errorOnRcvry then s.vapInfoCleanup else s
  { s with errorOnRcvry := false }

/-- A round is initiated: a table is allocated, unless the one of the last round is kept. -/
def newRound (s : Rcvry n) (a : Alloc) : Rcvry n :=
  if s.errorOnRcvry then { s with initiator := .acquire, round := s.round + 1 }
  else
    let s := { s with chain := s.chain + 1 }.vapInfoCreate a
    if a = .ok then { s with initiator := .acquire, round := s.round + 1 }
    else { s with errorOnRcvry := false }

/-- `rcvry_initiate`, until it waits for `slave_rlse_mutex`. -/
def initiate (s : Rcvry n) (a : Alloc) : Rcvry n :=
  let s := { s with failTimer := false }
  if s.currentRcvryType ≠ .undef then s
  else
    let s := s.chooseType
    if s.currentRcvryType = .none ∨ s.currentRcvryType = .complete then s.giveUp else s.newRound a

/-- The next step of the thread that initiates a round. `ok` says whether there was memory for the
task. -/
def initiatorStep (s : Rcvry n) (ok : Bool) : Rcvry n :=
  match s.initiator with
  | .none => s
  | .acquire =>
    if 0 < s.slaveRlse then { s with slaveRlse := s.slaveRlse - 1, initiator := .schedule 0 } else s
  | .schedule 0 =>
    if ok then
      { s with
        masterScheduled := s.masterScheduled + 1
        tasks := s.tasks ++ [.master]
        initiator := .schedule 1 }
    else { s with initiator := .schedule 1 }
  | .schedule (v + 1) =>
    if h : v < n then
      let i : Fin n := ⟨v, h⟩
      if ok then
        { s with
          slaves := Function.update s.slaves i
            { s.slaves i with scheduled := (s.slaves i).scheduled + 1 }
          tasks := s.tasks ++ [.slave i]
          initiator := .schedule (v + 2) }
      else { s with initiator := .schedule (v + 2) }
    else { s with isScheduled := true, errorOnRcvry := false, initiator := .none }

/-- A start step of `master_recovery`. Isolation and finalization do not fail. -/
def workStep (s : Rcvry n) (type : RcvryType) (ok : Bool) : Stage → Rcvry n
  | .isolation =>
    { s with master := .work (if s.cfg.fwDump ≠ 0 then .fwDump else .restoration) type }
  | .fwDump =>
    { s with master := if ok then .work .restoration type else .release type false 0 }
  | .restoration =>
    { s with master := if ok then .work .configuration type else .release type false 0 }
  | .configuration =>
    { s with master := if ok then .work .finalization type else .release type false 0 }
  | .finalization =>
    if s.initiator = .none then
      { s with
        failTimer := s.failTimer || s.cfg.failTimeInterval ≠ 0
        tasks := s.tasks ++ [.finish]
        master := .release type true 0 }
    else s

/-- The next step of `master_recovery`. There is an entry in the table for each of the `n + 1`
VAPs. -/
def masterStep (s : Rcvry n) (ok : Bool) (a : Alloc) : Rcvry n :=
  match s.master with
  | .idle => if s.masterDone < s.masterScheduled then { s with master := .sync 0 } else s
  | .sync k =>
    if 0 < s.slaveSync then
      { s with
        slaveSync := s.slaveSync - 1
        master := if k = n then .syncBack else .sync (k + 1) }
    else s
  | .syncBack => { s with slaveSync := s.slaveSync + 1, master := .begin }
  | .begin =>
    if s.initiator = .none then
      { s with isScheduled := false, master := .work .isolation s.currentRcvryType }
    else s
  | .work stage type => s.workStep type ok stage
  | .release type res k =>
    { s with
      slaveRlse := s.slaveRlse + 1
      master := if k = n then .finish type res else .release type res (k + 1) }
  | .finish type res =>
    if s.initiator = .none then
      if res then
        { s.vapInfoCleanup with
          currentRcvryType := .undef
          master := .idle
          masterDone := s.masterDone + 1 }
      else { s with errorOnRcvry := true, currentRcvryType := .undef, master := .onError type }
    else s
  | .onError type =>
    if s.initiator = .none then { s.initiate a with master := .returning type } else s
  | .returning _ =>
    if s.initiator = .none then { s with master := .idle, masterDone := s.masterDone + 1 } else s

/-- The next step of `slave_recovery` in the serializer of a slave VAP. -/
def slaveStep (s : Rcvry n) (i : Fin n) : Rcvry n :=
  match (s.slaves i).phase with
  | .idle =>
    if (s.slaves i).passed < (s.slaves i).scheduled then
      { s with slaves := Function.update s.slaves i { s.slaves i with phase := .started } }
    else s
  | .started =>
    { s with
      slaveSync := s.slaveSync + 1
      slaves := Function.update s.slaves i { s.slaves i with phase := .synced } }
  | .synced =>
    if 0 < s.slaveRlse then
      { s with
        slaveRlse := s.slaveRlse - 1
        slaves := Function.update s.slaves i
          { s.slaves i with passed := (s.slaves i).passed + 1, phase := .idle } }
    else s

inductive Event (n : Nat) where
  /-- The firmware crashes, or another thread initiates a recovery. -/
  | initiate (a : Alloc)
  | initiator (ok : Bool)
  | master (ok : Bool) (a : Alloc)
  | slave (i : Fin n)
  | failTimer
  | setCfg (cfg : RcvryCfg)
  | setForcedType (type : RcvryType)
  deriving DecidableEq

def step (s : Rcvry n) : Event n → Rcvry n
  | .initiate a => if s.initiator = .none then s.initiate a else s
  | .initiator ok => s.initiatorStep ok
  | .master ok a => s.masterStep ok a
  | .slave i => s.slaveStep i
  | .failTimer =>
    if s.initiator = .none ∧ s.failTimer then
      { s with failTimer := false, fastRcvryCnt := 0, fullRcvryCnt := 0 }
    else s
  | .setCfg cfg =>
    if s.initiator = .none then { s with cfg := cfg, fastRcvryCnt := 0, fullRcvryCnt := 0 } else s
  | .setForcedType type =>
    if s.initiator = .none then { s with forcedRcvryType := type } else s

end Rcvry

end Wave300.Recovery
