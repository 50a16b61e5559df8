import Mathlib.Logic.Function.Basic
import Wave300.Lib.Keyed
import Wave300.Lib.Trace

/-!
# WDS peers

`wds.c`: the peer access points of each VAP, and the list, kept in the master's manager, of those
whose next beacon is waited for. Each entry point is one step. A beacon takes an entry from that
list and a timer goes off outside of the serializer, and each leaves a task there.

How the firmware answers, whether memory is had and whether a task is accepted is given with each
step. The callers in `core.c` and `core_ext.c` are modelled as far as they decide what of WDS is
called. What is printed, the delays of the timers and the list that is shown to the user are left
out.
-/

namespace Wave300.Wds

open Lib

/-- The codes of `mtlkerr.h` that are returned here, or by the mutex and the timer of a peer. -/
inductive Err where
  | ok
  | unknown
  | params
  | noMem
  | noResources
  | noEntry
  | alreadyExists
  deriving DecidableEq

/-- `wds_peer_state_t` -/
inductive PeerState where
  | disconnected
  | connecting
  | connected
  | disconnecting
  | error
  deriving DecidableEq

/-- `_wds_peer_action_t` -/
inductive Action where
  | connect
  | connected
  | disconnect
  | error
  deriving DecidableEq

/-- `wds_peer_t`. `fsmTimer` is whether the timer is set. -/
structure Peer (A S : Type) where
  addr : A
  killOnDisconnect : Bool
  fwPeerStaAdded : Bool
  sta : Option S
  fsmTimer : Bool
  state : PeerState
  deriving DecidableEq

/-- `wds_on_beacon_t` -/
structure OnBeacon (A V : Type) where
  addr : A
  vapId : V
  deriving DecidableEq

/-- What a message to the firmware comes to: there is no message to be had, or it is answered, or
the answer is a failure. -/
inductive Send where
  | noMsg
  | ok
  | outOfMemory
  | badValue
  | failed
  deriving DecidableEq

/-- What is seen of the manager: the requests to add (`true`) or delete a peer that are sent to the
firmware, the peers that become connected, and what the user was told is added or deleted. -/
inductive Event (A V : Type) where
  | request (v : V) (a : A) (add : Bool)
  | connected (v : V) (a : A)
  | added (v : V) (a : A)
  | deleted (v : V) (a : A)
  deriving DecidableEq

/-- A VAP: whether it exists, whether its core is in `NET_STATE_CONNECTED`, in the bridge mode
`BR_MODE_WDS` and has `is_iface_stopping` set, and its peers. `held` is the references to stations
that were taken for the peer with an address and not dropped. -/
structure Vap (A S : Type) where
  present : Bool
  connected : Bool
  bridgeWds : Bool
  stopping : Bool
  peersList : List (Peer A S)
  held : A → List S

/-- The managers of all VAPs, the master's `on_beacon_list`, the tasks that wait in the serializers:
those a beacon scheduled, and those a timer did, with the VAP and the address; and what was seen so
far. -/
structure Managers (V A S : Type) where
  vap : V → Vap A S
  onBeaconList : List (OnBeacon A V)
  beaconTasks : List (OnBeacon A V)
  timerTasks : List (V × A)
  log : List (Event A V)

section Transitions
variable {A S : Type} {V : Type} {p p' : Peer A S} {action : Action}

/-- What `_wds_send_fw_cfg_peer_ap` returns. -/
def Send.res : Send → Err
  | .noMsg => .noResources
  | .ok => .ok
  | .outOfMemory => .noMem
  | .badValue => .params
  | .failed => .unknown

@[simp] theorem Send.res_eq_ok {send : Send} : send.res = .ok ↔ send = .ok := by
  cases send <;> simp [Send.res]

/-- `_wds_send_fw_cfg_peer_ap`: the peer afterwards, and the result -/
def sendFwCfgPeerAp (add : Bool) (send : Send) (p : Peer A S) : Peer A S × Err :=
  (if send = .ok then { p with fwPeerStaAdded := add } else p, send.res)

theorem sendFwCfgPeerAp_fst (add : Bool) (send : Send) (p : Peer A S) :
    (sendFwCfgPeerAp add send p).1 =
      { p with fwPeerStaAdded := (sendFwCfgPeerAp add send p).1.fwPeerStaAdded } := by
  rw [sendFwCfgPeerAp]
  split <;> rfl

/-- What is seen of `_wds_send_fw_cfg_peer_ap`. -/
def sent (v : V) (a : A) (add : Bool) (send : Send) : List (Event A V) :=
  if send = .noMsg then [] else [.request v a add]

/-- The transitions of `_wds_peer_fsm`. There is no peer any more where it calls
`_wds_peer_remove_delete`. -/
def peerNext (p : Peer A S) (action : Action) : Option (Peer A S) :=
  match p.state, action with
  | .disconnected, .connect | .error, .connect =>
    some { p with state := .connecting, fsmTimer := true }
  | .disconnected, .error | .error, .error => some { p with state := .error, fsmTimer := true }
  | .disconnected, .disconnect | .error, .disconnect =>
    if p.killOnDisconnect then none else some p
  -- happens when trying to connect to an incompatible peer
  | .connecting, .disconnect => some { p with state := .disconnected, fsmTimer := true }
  | .connecting, .connected => some { p with state := .connected, fsmTimer := false }
  | .connecting, .error => some { p with state := .error, fsmTimer := true }
  | .connected, .disconnect => some { p with state := .disconnecting, fsmTimer := true }
  | .disconnecting, .disconnect =>
    if p.killOnDisconnect then none else some { p with state := .disconnected, fsmTimer := true }
  -- the actions that are not expected
  | .disconnected, .connected | .error, .connected => some p
  | .connecting, .connect => some p
  | .connected, .connect | .connected, .connected | .connected, .error => some p
  | .disconnecting, .connect | .disconnecting, .connected | .disconnecting, .error => some p

/-- A transition changes nothing but the state and the timer. It sets the timer, or the peer becomes
connected, or nothing happens. -/
theorem peerNext_some (next : peerNext p action = some p') :
    p' = { p with state := p'.state, fsmTimer := p'.fsmTimer } ∧
      (p'.fsmTimer ∨ p'.state = .connected ∨ p' = p) := by
  unfold peerNext at next
  split at next
  all_goals first
    | (cases next; exact ⟨rfl, by simp⟩)
    | (split at next
       · cases next
       · cases next
         exact ⟨rfl, by simp⟩)

theorem peerNext_none (next : peerNext p action = none) : p.killOnDisconnect ∧
    action = .disconnect ∧ p.state ≠ .connecting ∧ p.state ≠ .connected := by
  unfold peerNext at next
  split at next
  all_goals first
    | cases next
    | (split at next
       · next kill => simp_all
       · cases next)

/-- Up, and not about to be stopped. -/
def Vap.up (x : Vap A S) : Bool := x.present && x.connected && x.bridgeWds && !x.stopping

namespace Managers

def addrs (s : Managers V A S) (v : V) : List A := (s.vap v).peersList.map Peer.addr

def note (events : List (Event A V)) (s : Managers V A S) : Managers V A S :=
  { s with log := s.log ++ events }

@[simp] theorem note_log (events : List (Event A V)) (s : Managers V A S) :
    (s.note events).log = s.log ++ events := rfl

@[simp] theorem note_vap (events : List (Event A V)) (s : Managers V A S) :
    (s.note events).vap = s.vap := rfl

@[simp] theorem note_nil (s : Managers V A S) : s.note [] = s := by simp [note]

end Managers

end Transitions

section Machine
variable {V A S : Type} [DecidableEq V] {s : Managers V A S} {v w : V} {p q : Peer A S}

namespace Managers

def setVap (v : V) (x : Vap A S) (s : Managers V A S) : Managers V A S :=
  { s with vap := Function.update s.vap v x }

@[simp] theorem setVap_vap (x : Vap A S) : (s.setVap v x).vap = Function.update s.vap v x := rfl

@[simp] theorem setVap_onBeaconList (x : Vap A S) :
    (s.setVap v x).onBeaconList = s.onBeaconList := rfl

@[simp] theorem setVap_beaconTasks (x : Vap A S) :
    (s.setVap v x).beaconTasks = s.beaconTasks := rfl

@[simp] theorem setVap_timerTasks (x : Vap A S) :
    (s.setVap v x).timerTasks = s.timerTasks := rfl

@[simp] theorem setVap_log (x : Vap A S) : (s.setVap v x).log = s.log := rfl

def push (v : V) (p : Peer A S) (s : Managers V A S) : Managers V A S :=
  s.setVap v { s.vap v with peersList := p :: (s.vap v).peersList }

theorem mem_push (mem : q ∈ ((s.push v p).vap w).peersList) :
    w = v ∧ q = p ∨ q ∈ (s.vap w).peersList := by
  rw [push, setVap_vap] at mem
  by_cases here : w = v
  · subst here
    rw [Function.update_self] at mem
    exact (List.mem_cons.1 mem).imp (⟨rfl, ·⟩) id
  · rw [Function.update_of_ne here] at mem
    exact .inr mem

/-- What is the same of one VAP is the same of all. -/
theorem read_setVap {β : Type} (f : Vap A S → β) {x : Vap A S} (same : f x = f (s.vap v)) :
    f ((s.setVap v x).vap w) = f (s.vap w) := by
  by_cases here : w = v
  · subst here
    rw [setVap_vap, Function.update_self, same]
  · rw [setVap_vap, Function.update_of_ne here]

def setHeld (v : V) (held : A → List S) (s : Managers V A S) : Managers V A S :=
  s.setVap v { s.vap v with held }

@[simp] theorem peersList_setHeld (held : A → List S) :
    ((s.setHeld v held).vap w).peersList = (s.vap w).peersList :=
  read_setVap Vap.peersList rfl

@[simp] theorem up_setHeld (held : A → List S) :
    ((s.setHeld v held).vap w).up = (s.vap w).up :=
  read_setVap Vap.up rfl

variable [DecidableEq A]

/-- `_wds_peer_find` -/
def find (s : Managers V A S) (v : V) (a : A) : Option (Peer A S) :=
  findKey Peer.addr a (s.vap v).peersList

/-- The peer that was found is as `p` from here on. -/
def put (v : V) (p : Peer A S) (s : Managers V A S) : Managers V A S :=
  s.setVap v { s.vap v with peersList := putKey Peer.addr p (s.vap v).peersList }

theorem mem_put (mem : q ∈ ((s.put v p).vap w).peersList) :
    w = v ∧ q = p ∨ q ∈ (s.vap w).peersList ∧ (w = v → q.addr ≠ p.addr) := by
  rw [put, setVap_vap] at mem
  by_cases here : w = v
  · subst here
    rw [Function.update_self] at mem
    obtain rfl | ⟨there, other⟩ := mem_putKey mem
    · exact .inl ⟨rfl, rfl⟩
    · exact .inr ⟨there, fun _ => other⟩
  · rw [Function.update_of_ne here] at mem
    exact .inr ⟨mem, fun same => absurd same here⟩

theorem addrs_put : (s.put v p).addrs w = s.addrs w := by
  rw [addrs, put, setVap_vap]
  by_cases here : w = v
  · subst here
    rw [Function.update_self]
    exact map_key_putKey
  · rw [Function.update_of_ne here]
    rfl

/-- `mtlk_sta_incref` -/
def incref (v : V) (a : A) (sta : S) (s : Managers V A S) : Managers V A S :=
  s.setHeld v (Function.update (s.vap v).held a (sta :: (s.vap v).held a))

end Managers

variable [DecidableEq A] [DecidableEq S]

/-- `mtlk_sta_decref`, if there is a station -/
def decref (held : A → List S) (p : Peer A S) : A → List S :=
  match p.sta with
  | none => held
  | some sta => Function.update held p.addr ((held p.addr).erase sta)

open Managers

/-- `_wds_on_beacon_create_add`. The entry goes to the front, whatever the list holds. -/
def onBeaconCreateAdd (v : V) (a : A) (alloc : Bool) (s : Managers V A S) : Managers V A S × Err :=
  if alloc then ({ s with onBeaconList := ⟨a, v⟩ :: s.onBeaconList }, .ok) else (s, .noMem)

/-- `wds_on_beacon_exclude`: the first entry with this address, and the list without it -/
def onBeaconExclude (a : A) (l : List (OnBeacon A V)) :
    Option (OnBeacon A V) × List (OnBeacon A V) :=
  (l.find? fun b => b.addr = a, l.eraseP fun b => b.addr = a)

/-- `_wds_peer_remove_delete` -/
def peerRemoveDelete (v : V) (p : Peer A S) (s : Managers V A S) : Managers V A S :=
  let x := s.vap v
  { s.setVap v
      { x with held := decref x.held p, peersList := removeKey Peer.addr p.addr x.peersList }
    with onBeaconList := (onBeaconExclude p.addr s.onBeaconList).2 }

theorem mem_peerRemoveDelete : q ∈ ((peerRemoveDelete v p s).vap w).peersList ↔
    q ∈ (s.vap w).peersList ∧ (w = v → q.addr ≠ p.addr) := by
  rw [peerRemoveDelete, setVap_vap]
  by_cases here : w = v
  · subst here
    rw [Function.update_self]
    simp [mem_removeKey]
  · rw [Function.update_of_ne here]
    simp [here]

/-- `_wds_peer_fsm` -/
def peerFsm (v : V) (p : Peer A S) (action : Action) (s : Managers V A S) : Managers V A S :=
  match peerNext p action with
  | none => peerRemoveDelete v p s
  | some p' =>
    (s.put v p').note
      (if p.state ≠ .connected ∧ p'.state = .connected then [.connected v p.addr] else [])

/-- What adding a peer comes upon: `mtlk_core_get_max_stas_supported_by_fw`, whether there is memory
for the peer, what `_wds_peer_init` returns, and whether there is memory for an entry of the
list. -/
structure Adding where
  maxSta : Nat
  alloc : Bool
  init : Err
  onBeacon : Bool
  deriving DecidableEq

/-- `_wds_peer_init`, of a peer whose memory was cleared -/
def peerInit (a : A) : Peer A S := ⟨a, false, false, none, false, .disconnected⟩

/-- `_wds_peer_create_add` -/
def peerCreateAdd (v : V) (a : A) (o : Adding) (s : Managers V A S) : Managers V A S × Err :=
  if ¬ o.alloc then (s, .noMem)
  else if o.init ≠ .ok then (s, o.init)
  else
    let s := s.push v (peerInit a)
    if (s.vap v).connected then ((onBeaconCreateAdd v a o.onBeacon s).1, .ok) else (s, .ok)

/-- `wds_usr_add_peer_ap` -/
def usrAddPeerAp (v : V) (a : A) (o : Adding) (s : Managers V A S) : Managers V A S × Err :=
  if (s.find v a).isSome then (s, .alreadyExists)
  else if o.maxSta = (s.vap v).peersList.length then (s, .noMem)
  else peerCreateAdd v a o s

/-- `wds_usr_del_peer_ap` -/
def usrDelPeerAp (v : V) (a : A) (send : Send) (s : Managers V A S) : Managers V A S × Err :=
  match s.find v a with
  | none => (s, .noEntry)
  | some peer =>
    let peer := { peer with killOnDisconnect := true }
    if peer.fwPeerStaAdded then
      let (peer, res) := sendFwCfgPeerAp false send peer
      let s := s.note (sent v a false send)
      if res = Err.ok then (peerFsm v peer .disconnect s, res) else (s.put v peer, res)
    else (peerFsm v peer .disconnect s, .ok)

/-- `wds_peer_connect`. Without a station, adding it has failed. -/
def peerConnect (v : V) (a : A) (sta : Option S) (send : Send) (s : Managers V A S) :
    Managers V A S :=
  match s.find v a with
  | none => s
  | some peer =>
    match sta with
    | some sta => peerFsm v { peer with sta := some sta } .connected (s.incref v a sta)
    | none =>
      peerFsm v (sendFwCfgPeerAp false send peer).1 .error (s.note (sent v a false send))

/-- `wds_peer_disconnect`, with whether the caller is to go no further -/
def peerDisconnect (v : V) (a : A) (send : Send) (s : Managers V A S) :
    Managers V A S × Err × Bool :=
  match s.find v a with
  | none => (s, .ok, false)
  | some peer =>
    let s := s.setHeld v (decref (s.vap v).held peer)
    let peer := { peer with sta := none }
    if peer.fwPeerStaAdded then
      let (peer, res) := sendFwCfgPeerAp false send peer
      let s := s.note (sent v a false send)
      if res = Err.ok then (peerFsm v peer .disconnect s, res, true) else (s.put v peer, res, true)
    else (peerFsm v peer .disconnect s, .ok, false)

/-- `wds_on_beacon_proc` -/
def onBeaconProc (b : OnBeacon A V) (send : Send) (s : Managers V A S) : Managers V A S :=
  if ¬ (s.vap b.vapId).present then s
  else if ¬ (s.vap b.vapId).connected then s
  else if ¬ (s.vap b.vapId).bridgeWds then s
  else
    match s.find b.vapId b.addr with
    -- the peer may have been deleted in the meantime
    | none => s
    | some peer =>
      let (peer, res) := sendFwCfgPeerAp true send peer
      let s := s.note (sent b.vapId b.addr true send)
      peerFsm b.vapId peer (if res = .ok then .connect else .error) s

/-- `wds_peer_fsm_timer` -/
def peerFsmTimer (v : V) (a : A) (send : Send) (alloc : Bool) (s : Managers V A S) :
    Managers V A S :=
  match s.find v a with
  | none => s
  | some peer =>
    match peer.state with
    | .connecting =>
      peerFsm v (sendFwCfgPeerAp false send peer).1 .error (s.note (sent v a false send))
    | .disconnecting => peerFsm v peer .disconnect s
    | .error | .disconnected => (onBeaconCreateAdd v a alloc s).1
    | .connected => s

/-- `wds_on_if_down` -/
def onIfDown (v : V) (s : Managers V A S) : Managers V A S :=
  let x := s.vap v
  { s.setVap v
      { x with
        peersList := x.peersList.map fun p =>
          { p with
            killOnDisconnect := false, fwPeerStaAdded := false, fsmTimer := false,
            state := .disconnected, sta := none }
        held := x.peersList.foldl decref x.held }
    with onBeaconList := s.onBeaconList.filter fun b => b.vapId ≠ v }

/-- `wds_on_if_up`. `alloc` is for which peers there is memory. -/
def onIfUp (v : V) (alloc : A → Bool) (s : Managers V A S) : Managers V A S :=
  (s.vap v).peersList.foldl (fun s p => (onBeaconCreateAdd v p.addr (alloc p.addr) s).1) s

/-- `wds_cleanup`, after the serializer of the core was stopped -/
def cleanup (v : V) (s : Managers V A S) : Managers V A S :=
  { s.setVap v { s.vap v with present := false, peersList := [] }
    with timerTasks := s.timerTasks.filter fun t => t.1 ≠ v }

/-- `wds_init`, for a core that starts in bridge mode `BR_MODE_NONE` -/
def init (v : V) (s : Managers V A S) : Managers V A S :=
  s.setVap v
    { s.vap v with
      present := true, connected := false, bridgeWds := false, stopping := false, peersList := [] }

/-- What can happen. `send` is what a message comes to, `alloc` whether there is memory for an entry
of the list, and `scheduled` whether a task is accepted. -/
inductive Step (V A S : Type) where
  /-- the user adds a peer: `wds_usr_add_peer_ap` -/
  | usrAdd (v : V) (a : A) (o : Adding)
  /-- the user deletes a peer: `wds_usr_del_peer_ap` -/
  | usrDel (v : V) (a : A) (send : Send)
  /-- the master hears a beacon: `mtlk_core_wds_on_beacon` -/
  | beacon (a : A) (scheduled : Bool)
  /-- the task of a beacon: `wds_on_beacon_proc` -/
  | beaconTask (b : OnBeacon A V) (send : Send)
  /-- a connection is indicated, and the station was added or not -/
  | connectInd (v : V) (a : A) (sta : Option S) (send : Send)
  /-- a disconnection of a station: `_mtlk_core_disconnect_sta_blocked` -/
  | disconnectInd (v : V) (a : A) (send : Send)
  /-- a timer goes off: `mtlk_core_wds_on_timer` -/
  | timer (v : V) (a : A) (scheduled : Bool)
  /-- the task of a timer: `wds_peer_fsm_timer` -/
  | timerTask (v : V) (a : A) (send : Send) (alloc : Bool)
  /-- the core becomes connected, in an activation or at the end of a recovery -/
  | activate (v : V) (alloc : A → Bool)
  /-- `_mtlk_core_deactivate`, refused while a scan runs -/
  | deactivate (v : V) (refused : Bool)
  /-- the isolation that begins a recovery -/
  | isolate (v : V)
  /-- an exception: `NET_STATE_HALTED` -/
  | halt (v : V)
  /-- `_mtlk_core_set_bridge_mode` -/
  | setBridge (v : V) (wds : Bool)
  | cleanup (v : V)
  | init (v : V)

def Managers.step (s : Managers V A S) : Step V A S → Managers V A S
  | .usrAdd v a o =>
    let (s, res) := usrAddPeerAp v a o s
    s.note (if res = .ok then [.added v a] else [])
  | .usrDel v a send =>
    let (s, res) := usrDelPeerAp v a send s
    s.note (if res = .ok then [.deleted v a] else [])
  | .beacon a scheduled =>
    let (excluded, l) := onBeaconExclude a s.onBeaconList
    { s with
      onBeaconList := l
      beaconTasks := s.beaconTasks ++ if scheduled then excluded.toList else [] }
  | .beaconTask b send => onBeaconProc b send { s with beaconTasks := s.beaconTasks.erase b }
  | .connectInd v a sta send => if (s.vap v).bridgeWds then peerConnect v a sta send s else s
  | .disconnectInd v a send => if (s.vap v).bridgeWds then (peerDisconnect v a send s).1 else s
  | .timer v a scheduled =>
    match s.find v a with
    | none => s
    | some peer =>
      let s := s.put v { peer with fsmTimer := false }
      { s with timerTasks := s.timerTasks ++ if scheduled then [(v, a)] else [] }
  | .timerTask v a send alloc =>
    peerFsmTimer v a send alloc { s with timerTasks := s.timerTasks.erase (v, a) }
  | .activate v alloc =>
    let s := s.setVap v { s.vap v with connected := true }
    if (s.vap v).bridgeWds then onIfUp v alloc s else s
  | .deactivate v refused =>
    let s := if (s.vap v).bridgeWds then onIfDown v s else s
    if refused then s.setVap v { s.vap v with stopping := true }
    else s.setVap v { s.vap v with connected := false, stopping := false }
  | .isolate v =>
    let s := onIfDown v s
    s.setVap v { s.vap v with connected := false }
  | .halt v => s.setVap v { s.vap v with connected := false }
  | .setBridge v wds => s.setVap v { s.vap v with bridgeWds := wds }
  | .cleanup v => Wds.cleanup v s
  | .init v => Wds.init v s

/-- When a step can happen. -/
def Managers.Enabled (s : Managers V A S) : Step V A S → Prop
  | .usrAdd v _ _ | .usrDel v _ _ | .connectInd v _ _ _ | .disconnectInd v _ _ | .deactivate v _
  | .isolate v | .halt v | .cleanup v => (s.vap v).present
  | .beacon _ _ => True
  | .beaconTask b _ => b ∈ s.beaconTasks
  | .timer v a _ => ∃ p ∈ (s.vap v).peersList, p.addr = a ∧ p.fsmTimer
  | .timerTask v a _ _ => (v, a) ∈ s.timerTasks
  | .activate v _ | .setBridge v _ => (s.vap v).present ∧ ¬ (s.vap v).connected
  | .init v => ¬ (s.vap v).present

instance (s : Managers V A S) : DecidablePred s.Enabled
  | .usrAdd .. | .usrDel .. | .connectInd .. | .disconnectInd .. | .deactivate .. | .isolate _
  | .halt _ | .cleanup _ => inferInstanceAs (Decidable (_ = true))
  | .beacon .. => .isTrue trivial
  | .beaconTask .. | .timerTask .. => inferInstanceAs (Decidable (_ ∈ _))
  | .timer .. => inferInstanceAs (Decidable (∃ p ∈ _, _))
  | .activate .. | .setBridge .. => inferInstanceAs (Decidable (_ ∧ _))
  | .init _ => inferInstanceAs (Decidable (¬ _))

/-- No VAP exists. -/
def Managers.start : Managers V A S where
  vap := fun _ => ⟨false, false, false, false, [], fun _ => []⟩
  onBeaconList := []
  beaconTasks := []
  timerTasks := []
  log := []

/-- The way in which a VAP comes up. -/
def bringUp (v : V) : List (Step V A S) :=
  [.init v, .setBridge v true, .activate v fun _ => true]

/-- A peer is added without difficulties. -/
def plenty : Adding := ⟨16, true, .ok, true⟩

/-- A peer is added, heard, and gets its station. -/
def once : List (Step Nat Nat Nat) :=
  bringUp 0 ++ [Step.usrAdd 0 7 plenty, .beacon 7 true, .beaconTask ⟨7, 0⟩ .ok,
    .connectInd 0 7 (some 1) .ok]

/-- Two VAPs have a peer with the same address, and the one whose entry was made first is
deleted. -/
def crossing : List (Step Nat Nat Nat) :=
  bringUp 0 ++ bringUp 1 ++ [Step.usrAdd 0 7 plenty, .usrAdd 1 7 plenty, .usrDel 0 7 .ok]

/-- The states that runs reach. -/
abbrev Reached : Managers V A S → Prop := Runs Managers.step Managers.Enabled Managers.start

/-- The states that runs reach in which each step meets a condition. -/
abbrev RunsIf (condition : Managers V A S → Step V A S → Prop) : Managers V A S → Prop :=
  Runs Managers.step (fun s i => s.Enabled i ∧ condition s i) Managers.start


end Machine

end Wave300.Wds
