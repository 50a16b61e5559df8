import Mathlib.Algebra.BigOperators.Group.Finset.Basic
import Mathlib.Data.Fintype.Prod
import Wave300.Hstdb.References
import Wave300.Rod.Bookkeeping

/-!
# Received buffers

What becomes of a buffer once its header is an Ethernet header: `mtlk_detect_replay_or_sendup`,
`send_up` and `mtlk_mc_transmit`, with the references on stations that buffers own. The references
are kept by who took them: look-ups, buffers, and hosts. Where the result of a call decides, it is
an answer.
-/

namespace Wave300.Recv

open Hstdb (Sta Addr Refs)

/-- `src_sta`, `dst_sta` and the flags of `mtlk_nbuf_priv_t`. -/
structure Nbuf where
  src : Option Sta
  dst : Option Sta
  directed : Bool
  unicast : Bool
  broadcast : Bool
  multicast : Bool
  forward : Bool
  consume : Bool
  deriving DecidableEq

/-- `BR_MODE_...` -/
inductive BridgeMode where
  | none
  | macCloning
  | l2nat
  | wds
  deriving DecidableEq, Repr

/-- What is read of the core. -/
structure Core where
  isAp : Bool
  bridgeMode : BridgeMode
  macAddr : Addr
  promiscuous : Bool
  apForwarding : Bool
  reliableMcast : Bool
  /-- `mtlk_df_ui_check_is_mc_group_member` -/
  mcGroup : Addr → Bool

/-- What `mtlk_mc_transmit` finds for a multicast frame: it is not for a group that could be known,
its group is not known, or these are the stations of the group. -/
inductive Group where
  | other
  | unknown
  | members (l : List Sta)

/-- The results of the calls made for a chain or a buffer. -/
structure Answers where
  /-- `_detect_replay` -/
  replay : Bool
  /-- `mtlk_qos_get_ac` does not return `AC_INVALID`. -/
  ac : Bool
  /-- `mtlk_df_nbuf_clone_with_priv` -/
  cloned : Bool
  group : Group
  /-- The stations of the peers of the WDS manager that are connected. -/
  peers : List Sta
  /-- `mtlk_stadb_get_sta_cnt` -/
  staCnt : Nat
  /-- `mtlk_sq_enqueue_clone_begin` -/
  cloneBegin : Bool
  /-- `mtlk_df_nbuf_clone_no_priv` -/
  staCloned : Sta → Bool
  /-- `mtlk_xmit_sq_enqueue` -/
  staQueued : Sta → Bool
  /-- `mtlk_sq_enqueue` -/
  queued : Bool
  /-- `NET_STATE_CONNECTED` -/
  connected : Bool

/-- `stas` are the station entries, `queued` the buffers that were put in the send queues, `asked`
counts the answers. -/
structure World where
  stadb : Addr → Option Sta
  db : Hstdb.Db
  stas : Finset Sta
  finds : Refs
  packets : Refs
  rod : Sta × Fin 8 → Rod.Queue (List Nbuf)
  queued : List Nbuf
  indicated : List Nbuf
  asked : Nat

/-- A queue, with nothing told of what it sent up and freed. -/
def unlogged (q : Rod.Queue (List Nbuf)) : Rod.Queue (List Nbuf) :=
  { q with sentUp := [], drops := [] }

namespace World

variable (env : Nat → Answers) (c : Core)

/-- A station is returned by a look-up, with a reference by the caller. -/
def found (s : Sta) (w : World) : World := { w with finds := w.finds.incref s }

/-- `mtlk_sta_decref` after a look-up -/
def lost (s : Sta) (w : World) : World := { w with finds := w.finds.decref s }

/-- `mtlk_sta_incref` by a packet -/
def incref (o : Option Sta) (w : World) : World :=
  match o with
  | some s => { w with packets := w.packets.incref s }
  | none => w

/-- `mtlk_sta_decref` by a packet -/
def decref (o : Option Sta) (w : World) : World :=
  match o with
  | some s => { w with packets := w.packets.decref s }
  | none => w

/-- `mtlk_df_nbuf_free`, with `mtlk_nbuf_priv_cleanup` -/
def free (b : Nbuf) (w : World) : World := (w.decref b.src).decref b.dst

/-- `mtlk_df_nbuf_free_sub_frames` -/
def freeSubFrames (chain : List Nbuf) (w : World) : World := chain.foldl (fun w b => w.free b) w

/-- `mtlk_df_ui_indicate_rx_data`: the OS gets the buffer without what the driver keeps in it. -/
def indicateRxData (b : Nbuf) (w : World) : World :=
  { w.free b with indicated := w.indicated ++ [b] }

/-- A buffer is put in a send queue, or dropped. -/
def enqueue (ok : Bool) (b : Nbuf) (w : World) : World :=
  if ok then { w with queued := b :: w.queued } else w.free b

/-- `mtlk_sq_enqueue_clone` -/
def enqueueClone (a : Answers) (b : Nbuf) (s : Sta) (w : World) : World :=
  if a.staCloned s then
    (w.incref (some s)).enqueue (a.staQueued s) { b with src := none, dst := some s }
  else w

/-- The loops of `mtlk_mc_transmit`: a clone for each station but the source. -/
def enqueueClones (a : Answers) (b : Nbuf) (l : List Sta) (w : World) : World :=
  l.foldl (fun w s => if b.src = some s then w else w.enqueueClone a b s) w

/-- `mtlk_mc_transmit`, from `MTLK_MC_TRANSMIT_NONRMCAST` on -/
def transmitNonRmcast (a : Answers) (b : Nbuf) (w : World) : World :=
  if (b.broadcast || b.multicast) && c.isAp && c.bridgeMode == .wds then
    let w := if a.cloneBegin then w.enqueueClones a b a.peers else w
    if a.staCnt = a.peers.length then w.free b else w.enqueue a.queued b
  else w.enqueue a.queued b

/-- `mtlk_mc_transmit` -/
def mcTransmit (a : Answers) (b : Nbuf) (w : World) : World :=
  if b.unicast then
    if b.dst.isSome then w.transmitNonRmcast c a b else w.free b
  else if b.broadcast then w.transmitNonRmcast c a b
  else if !c.reliableMcast || !c.isAp then w.transmitNonRmcast c a b
  else
    match a.group with
    | .other => w.transmitNonRmcast c a b
    | .unknown => w.free b
    | .members l =>
      if a.cloneBegin then (w.enqueueClones a b l).free b else w.free b

/-- `mtlk_df_nbuf_clone_with_priv` -/
def cloneWithPriv (b : Nbuf) (w : World) : World := (w.incref b.dst).incref b.src

/-- `send_up` -/
def sendUp (b : Nbuf) (w : World) : World :=
  let a := env w.asked
  let w := { w with asked := w.asked + 1 }
  let w := if b.forward && a.ac && a.cloned then (w.cloneWithPriv b).mcTransmit c a b else w
  if b.consume then
    if a.connected then w.indicateRxData b else w.free b
  else w.free b

/-- `send_up_sub_frames` -/
def sendUpSubFrames (chain : List Nbuf) (w : World) : World :=
  chain.foldl (fun w b => w.sendUp env c b) w

/-- `mtlk_detect_replay_or_sendup` -/
def detectReplayOrSendup (chain : List Nbuf) (w : World) : World :=
  let a := env w.asked
  let w := { w with asked := w.asked + 1 }
  if (chain.head?.bind Nbuf.src).isSome && a.replay then w.freeSubFrames chain
  else w.sendUpSubFrames env c chain

/-- `mtlk_sta_reorder_packet`: what the queue dropped is freed, what it retired is sent up. -/
def reorderPacket (now : Nat) (k : Sta × Fin 8) (seq : Nat) (chain : List Nbuf) (w : World) :
    World :=
  let q := (Rod.mtlkReorderPacket now (unlogged (w.rod k)) ⟨seq, chain⟩).1
  let w := { w with rod := Function.update w.rod k (unlogged q) }
  let w := q.drops.foldl (fun w d => w.freeSubFrames d.packet.nbuf) w
  q.sentUp.foldl (fun w d => w.detectReplayOrSendup env c d.packet.nbuf) w

end World

end Wave300.Recv
