import Wave300.Recv.Frame
import Wave300.Rod.Lifetime

/-!
# Traffic both ways

`mtlk_core_handle_tx_data` for a packet of the OS, `process_packets_by_ac` with `mtlk_xmit` for one
in a queue, `_mtlk_core_release_tx_data` for one that the hardware is done with, and the calls on a
reordering queue that no packet makes. Where a buffer is in the send queues is in `Sq`; here it is
in them, with the hardware, or freed.
-/

namespace Wave300.Recv

open Hstdb (Sta Addr)

/-- `ARP_REQ_SEND_RATE_MS` -/
def arpReqSendRateMs : UInt32 := 300

/-- What is read of a packet of the OS, with the results of the calls made for it: `hSource` and
`hDest` are those of its Ethernet header, in L2NAT mode as `mtlk_l2nat_on_tx` leaves them, and `ip`
the two addresses of an IP packet. -/
structure TxData where
  hSource : Addr
  hDest : Addr
  /-- `mtlk_wlan_pkt_is_802_1X` -/
  eapol : Bool
  ip : Option (UInt32 × UInt32)
  /-- `_mtlk_core_has_connections` -/
  connections : Bool
  /-- `mtlk_stadb_get_ap` -/
  ap : Option Sta
  hst : Hstdb.Env
  answers : Answers
  /-- `mtlk_osal_timestamp`, before a probe and after it -/
  now : UInt32
  probed : UInt32
  /-- `mtlk_osal_timestamp_to_ms` -/
  toMs : UInt32 → UInt32
  /-- `mtlk_df_nbuf_alloc` -/
  alloc : Bool

/-- The results of the calls that `mtlk_xmit` makes. -/
structure Sending where
  /-- `is_stopping | is_stopped` -/
  stopping : Bool
  /-- `mtlk_stadb_get_ap` -/
  ap : Option Sta
  /-- The filter of a station lets the packet pass. -/
  passes : Sta → Bool
  /-- `get_msg_to_send` -/
  msg : Bool

/-- `MTLK_NBUFF_UNICAST | MTLK_NBUFF_RMCAST`, of a buffer in a send queue: one that is for a station
and not unicast is a clone. -/
def Nbuf.single (b : Nbuf) : Bool := b.unicast || b.dst.isSome

/-- A buffer as `mtlk_nbuf_priv_init` leaves it -/
def Nbuf.fresh : Nbuf := ⟨none, none, false, false, false, false, false, false⟩

namespace World

variable (env : Nat → Answers) (c : Core)

/-- `mtlk_nbuf_priv_set_dst_sta` for a station that was found, and `mtlk_sta_decref`. -/
def addressed (s : Sta) (w : World) : World := ((w.found s).incref (some s)).lost s

/-- What `mtlk_core_handle_tx_data` learns from a source address in the modes that have hosts. -/
def learnSource (p : TxData) (w : World) : World :=
  if c.isAp ∨ p.hSource = c.macAddr then w
  else
    match c.bridgeMode with
    | .l2nat => { w with db := w.db.updateDefaultHost p.hSource }
    | .wds =>
      match p.ap with
      | some s =>
        let w := w.found s
        { w with db := w.db.updateHost p.hst p.hSource s }.lost s
      | none => w
    | .none | .macCloning => w

/-- The station that a unicast packet is for. -/
def dstSta (p : TxData) (w : World) : Option Sta :=
  if c.isAp then
    match w.stadb p.hDest with
    | some s => some s
    | none => if c.bridgeMode = .wds then w.hostSta p.hDest else none
  else p.ap

/-- `mtlk_xmit`: the buffer, and whether the hardware took it. -/
def xmit (a : Sending) (b : Nbuf) (w : World) : World × Nbuf × Bool :=
  if a.stopping then (w, b, false)
  else if b.single then
    match b.dst with
    | some s => (w, b, a.passes s && a.msg)
    | none => (w, b, false)
  else if c.isAp then (w, b, a.msg)
  else
    -- whatever a station sends, it sends to its AP
    match a.ap with
    | some s => (w.addressed s, { b with dst := some s }, a.passes s && a.msg)
    | none => (w, b, a.msg)

/-- A call on a reordering queue: what the queue dropped is freed, what it let go is sent up. -/
def rodCall (k : Sta × Fin 8) (call : Rod.Call (List Nbuf)) (w : World) : World :=
  let q := Rod.call (unlogged (w.rod k)) call
  let w := { w with rod := Function.update w.rod k (unlogged q) }
  let w := q.drops.foldl (fun w d => w.freeSubFrames d.packet.nbuf) w
  q.sentUp.foldl (fun w d => w.detectReplayOrSendup env c d.packet.nbuf) w

end World

/-- `sent` are the buffers that the hardware has. -/
structure Traffic where
  world : World
  sent : List Nbuf
  lastArpProbe : UInt32

namespace Traffic

variable (env : Nat → Answers) (c : Core)

/-- `subst_ip_to_arp_probe`: the buffer of the probe, where the packet's own was freed for it. -/
def substIpToArpProbe (p : TxData) (b : Nbuf) (s : Traffic) : Option (Traffic × Nbuf) :=
  if p.toMs (p.now - s.lastArpProbe) < arpReqSendRateMs then none
  else
    match p.ip with
    | none => none
    | some (saddr, daddr) =>
      if saddr = 0 ∨ daddr = 0 ∨ p.alloc = false then none
      else some ({ s with world := s.world.free b, lastArpProbe := p.probed },
        { Nbuf.fresh with broadcast := true })

/-- `mtlk_core_handle_tx_data` from the destination on -/
def transmit (p : TxData) (b : Nbuf) (s : Traffic) : Traffic :=
  let send (w : World) (b : Nbuf) : Traffic := { s with world := w.mcTransmit c p.answers b }
  if isBroadcast p.hDest then send s.world { b with broadcast := true }
  else if isMulticast p.hDest then send s.world { b with multicast := true }
  else
    match s.world.dstSta c p with
    | some x => send (s.world.addressed x) { b with dst := some x, unicast := true }
    | none =>
      match if c.bridgeMode = .wds then s.substIpToArpProbe p b else none with
      | some (s, b) => { s with world := s.world.mcTransmit c p.answers b }
      | none => { s with world := s.world.free b }

/-- `mtlk_core_handle_tx_data` -/
def handleTxData (p : TxData) (s : Traffic) : Traffic :=
  let b := Nbuf.fresh
  if !p.connections || !p.answers.ac then { s with world := s.world.free b }
  else if c.bridgeMode = .macCloning ∧ p.eapol = false ∧ p.hSource ≠ c.macAddr then
    { s with world := s.world.free b }
  else { s with world := s.world.learnSource c p }.transmit c p b

/-- A packet that `process_packets_by_ac` takes from a queue. -/
def send (i : Nat) (a : Sending) (s : Traffic) : Traffic :=
  match s.world.queued[i]? with
  | none => s
  | some b =>
    let w := { s.world with queued := s.world.queued.eraseIdx i }
    let (w, b, taken) := w.xmit c a b
    if taken then { s with world := w, sent := b :: s.sent } else { s with world := w.free b }

/-- `_mtlk_core_release_tx_data` -/
def releaseTxData (i : Nat) (s : Traffic) : Traffic :=
  match s.sent[i]? with
  | none => s
  | some b => { s with world := s.world.free b, sent := s.sent.eraseIdx i }

/-- `mtlk_sq_peer_ctx_cancel_all_packets`, for a station or for what is sent to all. -/
def cancelAllPackets (o : Option Sta) (s : Traffic) : Traffic :=
  let gone := s.world.queued.filter fun b => b.dst = o
  let left := s.world.queued.filter fun b => !decide (b.dst = o)
  { s with world := { s.world with queued := left }.freeSubFrames gone }

inductive Event where
  | tx (p : TxData)
  | rx (f : Frame)
  | reordering (k : Sta × Fin 8) (call : Rod.Call (List Nbuf))
  | send (i : Nat) (a : Sending)
  | release (i : Nat)
  | cancel (o : Option Sta)

def step (s : Traffic) : Event → Traffic
  | .tx p => s.handleTxData c p
  | .rx f => { s with world := s.world.handleRxInd env c f }
  | .reordering k call => { s with world := s.world.rodCall env c k call }
  | .send i a => s.send c i a
  | .release i => s.releaseTxData i
  | .cancel o => s.cancelAllPackets o

end Traffic

end Wave300.Recv
