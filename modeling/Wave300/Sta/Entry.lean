import Wave300.Addba.System

/-!
# Stations and their aggregations

The part of `stadb.c` that decides when an aggregation is negotiated: a TID counts its
packets, has a task scheduled when it has sent enough of them, and counts again when the
ADDBA module tells that the negotiation is over.

The tasks of the serializer are kept as their number for each TID, so they run in any order.
Whether a task can be scheduled is an argument.
-/

namespace Wave300.Sta

open Wave300.Addba

/-- `mtlk_pckt_filter_e` -/
inductive PcktFilter where
  | allowAll
  | allow8021x
  | discardAll
  deriving DecidableEq, Repr

/-- What a `sta_entry` keeps for its aggregations. `connected` says whether it is in the
hash of the database. -/
structure Entry where
  connected : Bool
  dot11nMode : Bool
  psModeEnabled : Bool
  filter : PcktFilter
  txPackets : Fin nofTids → Nat
  aggrInited : Fin nofTids → Bool

/-- The station database of every VAP. -/
structure Db (π ν : Type) where
  sys : System π ν
  sta : π → Entry
  aggrOpenThreshold : ν → Nat
  tasks : π × Fin nofTids → Nat

/-- `_mtlk_sta_start` -/
def Entry.start (dot11nMode : Bool) : Entry where
  connected := true
  dot11nMode := dot11nMode
  psModeEnabled := false
  filter := .allow8021x
  txPackets := fun _ => 0
  aggrInited := fun _ => false

/-- `_mtlk_sta_addba_restart_tx_count_tid`, for the TIDs in `over`. -/
def Entry.restartTxCount (exceeded : Fin nofTids → Bool) (e : Entry) : Entry :=
  { e with
    txPackets := fun t => if exceeded t then 0 else e.txPackets t
    aggrInited := fun t => if exceeded t then false else e.aggrInited t }

/-- `on_stop_aggregation` and `on_ba_req_unconfirmed` restart the counter. -/
def restarts (out : List Out) : Bool :=
  out.any fun o => o = .stopAggregation ∨ o = .baReqUnconfirmed

variable {π ν : Type} [DecidableEq π] [DecidableEq ν]

/-- `_mtlk_sta_schedule_aggregation_revival_tid` -/
def Db.scheduleRevival (db : Db π ν) (scheduled : Bool) (k : π × Fin nofTids) : Db π ν :=
  if scheduled then { db with tasks := Function.update db.tasks k (db.tasks k + 1) } else db

/-- The ADDBA module goes on to `sys`, with the calls of the wrap API on the way: the
counters are restarted, and a rejected request is tried again. -/
def Db.called (db : Db π ν) (scheduled : π × Fin nofTids → Bool) (sys : System π ν) : Db π ν :=
  { db with
    sys := sys
    sta := fun p => (db.sta p).restartTxCount fun t => restarts (db.sys.newOut sys (p, t))
    tasks := fun k => db.tasks k +
      if scheduled k then (db.sys.newOut sys k).count .baReqRejected else 0 }

/-- `mtlk_sta_update_tx` -/
def Db.updateTx (db : Db π ν) (p : π) (t : Fin nofTids) (scheduled : Bool) : Db π ν :=
  let e := db.sta p
  if e.dot11nMode ∧ e.aggrInited t = false ∧ e.filter = .allowAll then
    let nofTxPackets := (e.txPackets t + 1) % 2 ^ 32
    if nofTxPackets = db.aggrOpenThreshold (db.sys.home p) then
      { db with
        sta := Function.update db.sta p
          { e with
            txPackets := Function.update e.txPackets t 0
            aggrInited := Function.update e.aggrInited t true } }.scheduleRevival scheduled (p, t)
    else
      { db with
        sta := Function.update db.sta p
          { e with txPackets := Function.update e.txPackets t nofTxPackets } }
  else db

/-- `_mtlk_stadb_on_addba_revive_aggregation_tid` -/
def Db.reviveAggregation (db : Db π ν) (k : π × Fin nofTids) (io : Io) : Db π ν :=
  if db.tasks k = 0 then db
  else
    let db := { db with tasks := Function.update db.tasks k (db.tasks k - 1) }
    if (db.sta k.1).connected then
      { db with
        sys := step db.sys
          (.startAggrNegotiation k.1 k.2 (db.sta k.1).psModeEnabled io) }
    else db

/-- `_mtlk_sta_addba_exit_ps` -/
def Db.exitPs (db : Db π ν) (p : π) : Db π ν :=
  let e := db.sta p
  let asleep (t : Fin nofTids) : Bool :=
    e.aggrInited t && decide ((db.sys.tid (p, t)).tx.state = .staPowerSave)
  { db with
    sys := (List.finRange nofTids).foldl
      (fun s t => if e.aggrInited t then step s (.resetPowerSave p t) else s) db.sys
    sta := Function.update db.sta p (e.restartTxCount asleep) }

/-- `mtlk_sta_set_pm_enabled` -/
def Db.setPmEnabled (db : Db π ν) (p : π) (enabled : Bool) : Db π ν :=
  let db := { db with
    sta := Function.update db.sta p { db.sta p with psModeEnabled := enabled } }
  if enabled then db else db.exitPs p

/-- `mtlk_sta_set_packets_filter` -/
def Db.setPacketsFilter (db : Db π ν) (p : π) (filter : PcktFilter) : Db π ν :=
  if (db.sta p).filter ≠ filter then
    { db with
      sta := Function.update db.sta p
        { db.sta p with filter := filter, txPackets := fun _ => 0 } }
  else db

/-- `mtlk_stadb_add_sta`: an entry in zeroed memory, with a peer of its own. A station that
is known is not added again. -/
def Db.addSta (db : Db π ν) (p : π) (now : Nat) (dot11nMode : Bool) : Db π ν :=
  if (db.sta p).connected then db
  else
    let fresh := { db.sys with
      isActive := Function.update db.sys.isActive p false
      tid := fun k => if k.1 = p then .init else db.sys.tid k }
    { db with
      sys := step fresh (.peerStart p now dot11nMode)
      sta := Function.update db.sta p (.start dot11nMode) }

/-- `mtlk_stadb_remove_sta` -/
def Db.removeSta (db : Db π ν) (p : π) (now : Nat) : Db π ν :=
  let db := db.called (fun _ => false) (step db.sys (.peerStop p now (db.sta p).dot11nMode))
  { db with sta := Function.update db.sta p { db.sta p with connected := false } }

inductive Event (π ν : Type) where
  | updateTx (p : π) (t : Fin nofTids) (scheduled : Bool)
  | reviveAggregation (k : π × Fin nofTids) (io : Io)
  | addba (op : Op π ν) (scheduled : π × Fin nofTids → Bool)
  | setPmEnabled (p : π) (enabled : Bool)
  | setPacketsFilter (p : π) (filter : PcktFilter)
  | setAggrOpenThreshold (v : ν) (threshold : Nat)
  | addSta (p : π) (now : Nat) (dot11nMode : Bool)
  | removeSta (p : π) (now : Nat)

def Db.step (db : Db π ν) : Event π ν → Db π ν
  | .updateTx p t scheduled => db.updateTx p t scheduled
  | .reviveAggregation k io => db.reviveAggregation k io
  | .addba op scheduled => db.called scheduled (Addba.step db.sys op)
  | .setPmEnabled p enabled => db.setPmEnabled p enabled
  | .setPacketsFilter p filter => db.setPacketsFilter p filter
  | .setAggrOpenThreshold v threshold =>
    { db with aggrOpenThreshold := Function.update db.aggrOpenThreshold v threshold }
  | .addSta p now dot11nMode => db.addSta p now dot11nMode
  | .removeSta p now => db.removeSta p now

/-- No station is known yet. -/
def Db.init (home : π → ν) (cfg : ν → Fin nofTids → TidCfg) (maxAggr maxReord : Nat)
    (aggrOpenThreshold : ν → Nat) : Db π ν where
  sys := .init home cfg maxAggr maxReord
  sta := fun _ => { Entry.start false with connected := false }
  aggrOpenThreshold := aggrOpenThreshold
  tasks := fun _ => 0

end Wave300.Sta
