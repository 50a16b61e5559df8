import Mathlib.Algebra.Order.Ring.Int
import Wave300.Lib.Keyed

/-!
# Stations in power save

The firmware indicates when a station goes to sleep and when it wakes up. The core counts the
stations that sleep and lowers the limit of the broadcast queue while there are any.

The indications are handled in a tasklet, one after the other, and stations connect and leave in
another thread. The handler takes a reference when it finds the station and the lock of the
station database is free again then, so a station may leave while its indication is handled.
-/

namespace Wave300.Ps

open Lib

/-- The part of `mtlk_sq_peer_ctx_t` that power save is about. -/
structure PeerCtx where
  limit : UInt32
  limitCfg : UInt32
  psModeEnabled : Bool
  deriving DecidableEq, Repr

/-- `mtlk_sq_peer_ctx_init` -/
def PeerCtx.init (limit : UInt32) : PeerCtx where
  limit := limit
  limitCfg := limit
  psModeEnabled := false

/-- `MTLK_PACKETS_IN_MAC_DURING_PM` -/
def packetsInMacDuringPm : UInt32 := 3

def PeerCtx.limitFor (ctx : PeerCtx) (enabled : Bool) : UInt32 :=
  if enabled then min packetsInMacDuringPm ctx.limitCfg else ctx.limitCfg

/-- `mtlk_sq_set_pm_enabled` -/
def PeerCtx.setPmEnabled (ctx : PeerCtx) (enabled : Bool) : PeerCtx :=
  { ctx with limit := ctx.limitFor enabled, psModeEnabled := enabled }

/-- `MTLK_SQ_TX_LIMIT_DEFAULT` -/
def txLimitDefault : UInt32 := 64

/-- `MTLK_SQ_TX_LIMIT_LEGACY` -/
def txLimitLegacy : UInt32 := 2

/-- `UMI_STATION_IN_PS` -/
def stationInPs : UInt8 := 1

/-- What the station database holds of a station: which entry it is, and its address. -/
structure Sta (α : Type) where
  id : Nat
  addr : α
  deriving DecidableEq, Repr

/-- Where `_handle_pm_update_event` is, with the station it found. -/
inductive Handler where
  | idle
  | found (id : Nat) (enabled : Bool)
  | differs (id : Nat) (enabled : Bool)
  | flagged (id : Nat) (enabled : Bool)
  deriving DecidableEq, Repr

/-- `peer` is the queue context of each station that was ever made, connected or not. -/
structure Core (α : Type) where
  hash : List (Sta α)
  created : Nat
  peer : Nat → PeerCtx
  stasInPsMode : Int
  broadcast : PeerCtx
  handler : Handler

variable {α : Type} [DecidableEq α]

namespace Core

def init (limit : UInt32) : Core α where
  hash := []
  created := 0
  peer := fun _ => .init 0
  stasInPsMode := 0
  broadcast := .init limit
  handler := .idle

def isAsleep (s : Core α) (id : Nat) : Bool := (s.peer id).psModeEnabled

def IsConnected (s : Core α) (id : Nat) : Prop := id ∈ s.hash.map Sta.id

instance (s : Core α) (id : Nat) : Decidable (s.IsConnected id) :=
  inferInstanceAs (Decidable (id ∈ _))

/-- The connected stations whose power-save flag is set. -/
def asleep (s : Core α) : Nat := s.hash.countP fun sta => s.isAsleep sta.id

/-- `mtlk_core_set_pm_enabled`. The counter is read back as unsigned, so that a negative one
counts as some. -/
def setPmEnabled (s : Core α) (enabled : Bool) : Core α :=
  let stasInPsMode := if enabled then s.stasInPsMode + 1 else s.stasInPsMode - 1
  { s with stasInPsMode, broadcast := s.broadcast.setPmEnabled (stasInPsMode ≠ 0) }

/-- `mtlk_sta_set_pm_enabled` -/
def staSetPmEnabled (s : Core α) (id : Nat) (enabled : Bool) : Core α :=
  { s with peer := Function.update s.peer id ((s.peer id).setPmEnabled enabled) }

/-- `_handle_pm_update_event` as far as `mtlk_stadb_find_sta`. -/
def findSta (s : Core α) (addr : α) (newPowerMode : UInt8) : Core α :=
  match findKey Sta.addr addr s.hash with
  | some sta => { s with handler := .found sta.id (newPowerMode == stationInPs) }
  | none => s

/-- The next step of `_handle_pm_update_event`. -/
def handle (s : Core α) : Core α :=
  match s.handler with
  | .idle => s
  | .found id enabled =>
    -- an indication that was given before is skipped
    { s with handler := if s.isAsleep id ≠ enabled then .differs id enabled else .idle }
  | .differs id enabled => { s.staSetPmEnabled id enabled with handler := .flagged id enabled }
  | .flagged _ enabled => { s.setPmEnabled enabled with handler := .idle }

/-- A new entry is put into the hash, with its queue context. -/
def insert (s : Core α) (addr : α) (ctx : PeerCtx) : Core α :=
  { s with
    hash := ⟨s.created, addr⟩ :: s.hash
    created := s.created + 1
    peer := Function.update s.peer s.created ctx }

/-- `mtlk_stadb_add_sta` -/
def addSta (s : Core α) (addr : α) (dot11nMode : Bool) : Core α :=
  match findKey Sta.addr addr s.hash with
  | some _ => s
  | none => s.insert addr (.init (if dot11nMode then txLimitDefault else txLimitLegacy))

/-- `_mtlk_sta_ps_mode_cleanup` -/
def psModeCleanup (s : Core α) (id : Nat) : Core α :=
  if s.isAsleep id then s.setPmEnabled false else s

def remove (s : Core α) (id : Nat) : Core α := { s with hash := removeKey Sta.id id s.hash }

/-- `mtlk_stadb_remove_sta`, which is done under the lock. -/
def removeSta (s : Core α) (id : Nat) : Core α :=
  if s.IsConnected id then (s.remove id).psModeCleanup id else s

end Core

inductive Step (α : Type) where
  | pmUpdate (addr : α) (newPowerMode : UInt8)
  | handle
  | addSta (addr : α) (dot11nMode : Bool)
  | removeSta (id : Nat)

/-- The next indication is handled when the one before it is done. -/
def step (s : Core α) : Step α → Core α
  | .pmUpdate addr newPowerMode =>
    if s.handler = .idle then s.findSta addr newPowerMode else s
  | .handle => s.handle
  | .addSta addr dot11nMode => s.addSta addr dot11nMode
  | .removeSta id => s.removeSta id

end Wave300.Ps
