import Mathlib.Algebra.Order.Ring.Int
import Mathlib.Data.Fintype.Basic
import Mathlib.Data.Multiset.AddSub

/-!
# The send queue

Each peer has a list of packets for each access category. The queue sends them to the hardware,
the categories of higher priority first and the peers of a category in turn, and keeps the size
of each category as an atomic counter that is read without the lock.

A packet for a multicast group is cloned to its members. The clones share a reference-counted
block, which remembers the category, and they count as one packet.

What is done under `queue_lock` is one step. What a call does outside it is in steps of its own:
`calls` holds the calls that are on the way, each with what it does next.
-/

namespace Wave300.Sq

inductive Ac where
  | be
  | bk
  | vi
  | vo
  deriving DecidableEq, Repr

instance : Fintype Ac := ⟨{.be, .bk, .vi, .vo}, by intro ac; cases ac <;> decide⟩

/-- `AC_HIGHEST`. -/
def Ac.highest : Ac := .vo

/-- `mtlk_get_ac_by_number` from `NTS_PRIORITIES` down. -/
def Ac.byPriority : List Ac := [.vo, .vi, .be, .bk]

inductive Err where
  | ok
  | noMem
  | noResources
  | prohib
  | pktDropped
  | unknown
  deriving DecidableEq, Repr

/-! ## What a peer has in flight -/

/-- An `atomic_t`, as `mtlk_osal_atomic_get` returns it. -/
def asUint32 (n : Int) : Nat := (n % 2 ^ 32).toNat

/-- The part of `mtlk_sq_peer_ctx_t` that limits how much of the peer is in the hardware. -/
structure PeerTx where
  limit : UInt32
  used : Int
  psModeEnabled : Bool
  limitPerAc : Ac → UInt32
  usedPerAc : Ac → Int

def PeerTx.init (limit : UInt32) : PeerTx where
  limit := limit
  used := 0
  psModeEnabled := false
  limitPerAc := fun _ => 0
  usedPerAc := fun _ => 0

/-- The category has a limit of its own in power save. -/
def PeerTx.limitsAc (x : PeerTx) (ac : Ac) : Bool := x.psModeEnabled && x.limitPerAc ac != 0

/-- `process_packets_by_ac` passes the peer by. -/
def PeerTx.overLimit (x : PeerTx) (ac : Ac) : Bool :=
  if x.limitsAc ac then (x.limitPerAc ac).toNat ≤ asUint32 (x.usedPerAc ac)
  else x.limit.toNat ≤ asUint32 x.used

def PeerTx.incUsed (x : PeerTx) : PeerTx := { x with used := x.used + 1 }

def PeerTx.incUsedPerAc (x : PeerTx) (ac : Ac) : PeerTx :=
  { x with usedPerAc := Function.update x.usedPerAc ac (x.usedPerAc ac + 1) }

def PeerTx.decUsed (x : PeerTx) : PeerTx := { x with used := x.used - 1 }

def PeerTx.decUsedPerAc (x : PeerTx) (ac : Ac) : PeerTx :=
  { x with usedPerAc := Function.update x.usedPerAc ac (x.usedPerAc ac - 1) }

/-- `mtlk_sq_on_tx_cfm`. -/
def PeerTx.onTxCfm (x : PeerTx) (ac : Ac) : PeerTx := x.decUsed.decUsedPerAc ac

/-! ## The queue -/

/-- A peer: a station, or the broadcast context of a network interface. -/
inductive Ctx (σ ν : Type) where
  | sta (sta : σ)
  | broadcast (nic : ν)
  deriving DecidableEq, Repr

/-- A packet, numbered in the order of allocation. A clone has `MTLK_NBUFF_RMCAST` set and
points to the block of its group. -/
structure Pkt (σ ν : Type) where
  id : Nat
  dstSta : Option σ
  vap : ν
  urgent : Bool
  rmcast : Option Nat
  deriving DecidableEq, Repr

/-- The block that the clones of a group share. -/
structure Extra where
  refCnt : Int
  ac : Ac
  front : Bool
  deriving DecidableEq, Repr

/-- A call that is on the way outside the lock, by what it does next. -/
inductive Call (σ ν : Type) where
  /-- `mtlk_sq_enqueue` has counted the packet, and takes the lock. -/
  | enqueue (nic : ν) (pkt : Pkt σ ν) (ac : Ac) (front : Bool)
  /-- The packet was refused. `mtlk_sq_enqueue` takes it off the count. -/
  | refused (ac : Ac)
  /-- Between `mtlk_sq_enqueue_clone_begin` and `mtlk_sq_enqueue_clone_end` for `nbuf`. -/
  | cloning (nic : ν) (nbuf : Pkt σ ν) (extra : Nat)
  /-- `mtlk_sq_enqueue_clone` has made the clone, and takes the lock. -/
  | enqueueClone (nic : ν) (nbuf : Pkt σ ν) (extra : Nat) (clone : Pkt σ ν)
  /-- The clone was refused. `mtlk_sq_enqueue_clone` detaches and frees it. -/
  | cloneRefused (nic : ν) (nbuf : Pkt σ ν) (extra : Nat)
  /-- `mtlk_sq_enqueue_clone_end` has let go of the last reference, and takes the group off the
  count. -/
  | uncount (ac : Ac) (extra : Nat)
  deriving DecidableEq, Repr

/-- A packet that the hardware has. -/
structure Handed (σ ν : Type) where
  ctx : Ctx σ ν
  ac : Ac
  pkt : Pkt σ ν
  deriving DecidableEq, Repr

/-- From `extras` on the fields are not in the source: how many blocks and packets there have
been, what the hardware has, and the numbers of the packets that were accepted, that were never
in the queue, that were dropped from it and that were confirmed, and of the groups whose place in
`size` was given back. -/
structure Queue (σ ν : Type) where
  globalQueueLimit : Ac → Nat
  peerQueueLimit : Ac → Nat
  hwTxProhibited : Bool
  peers : Ac → List (Ctx σ ν)
  size : Ac → Int
  buflist : Ctx σ ν → Ac → List (Pkt σ ν)
  tx : Ctx σ ν → PeerTx
  extra : Nat → Option Extra
  calls : Multiset (Call σ ν)
  extras : Nat
  pkts : Nat
  inHw : Multiset (Handed σ ν)
  accepted : Multiset Nat
  outside : Multiset Nat
  dropped : Multiset Nat
  confirmed : Multiset Nat
  released : Multiset Nat

variable {σ ν : Type} [DecidableEq σ] [DecidableEq ν]

def Queue.init (globalQueueLimit peerQueueLimit : Ac → Nat) : Queue σ ν where
  globalQueueLimit := globalQueueLimit
  peerQueueLimit := peerQueueLimit
  hwTxProhibited := false
  peers := fun _ => []
  size := fun _ => 0
  buflist := fun _ _ => []
  tx := fun _ => .init 0
  extra := fun _ => none
  calls := 0
  extras := 0
  pkts := 0
  inHw := 0
  accepted := 0
  outside := 0
  dropped := 0
  confirmed := 0
  released := 0

/-- `_mtlk_sq_switch_if_urgent`. -/
def switchIfUrgent (pkt : Pkt σ ν) (ac : Ac) (front : Bool) : Ac × Bool :=
  if pkt.urgent then (.highest, true) else (ac, front)

/-- Where `mtlk_xmit_sq_enqueue` puts a packet. -/
def peerCtx (nic : ν) (pkt : Pkt σ ν) : Ctx σ ν :=
  match pkt.dstSta with
  | some sta => .sta sta
  | none => .broadcast nic

namespace Queue

def sizeInc (s : Queue σ ν) (ac : Ac) : Queue σ ν :=
  { s with size := Function.update s.size ac (s.size ac + 1) }

def sizeDec (s : Queue σ ν) (ac : Ac) : Queue σ ν :=
  { s with size := Function.update s.size ac (s.size ac - 1) }

def setBuflist (s : Queue σ ν) (p : Ctx σ ν) (ac : Ac) (l : List (Pkt σ ν)) : Queue σ ν :=
  { s with buflist := Function.update s.buflist p (Function.update (s.buflist p) ac l) }

def setTx (s : Queue σ ν) (p : Ctx σ ν) (x : PeerTx) : Queue σ ν :=
  { s with tx := Function.update s.tx p x }

def setExtra (s : Queue σ ν) (g : Nat) (e : Option Extra) : Queue σ ν :=
  { s with extra := Function.update s.extra g e }

def begin (s : Queue σ ν) (c : Call σ ν) : Queue σ ν := { s with calls := c ::ₘ s.calls }

def finish (s : Queue σ ν) (c : Call σ ν) : Queue σ ν := { s with calls := s.calls.erase c }

/-- `mtlk_df_nbuf_free`, of a packet that was in the queue. -/
def free (s : Queue σ ν) (pkt : Pkt σ ν) : Queue σ ν :=
  { s with dropped := pkt.id ::ₘ s.dropped }

def allocPkt (s : Queue σ ν) : Queue σ ν := { s with pkts := s.pkts + 1 }

/-- The packet was not accepted, or is the original of clones: it is not the queue's. -/
def leaveOut (s : Queue σ ν) (pkt : Pkt σ ν) : Queue σ ν :=
  { s with outside := pkt.id ::ₘ s.outside }

/-! ## The blocks of the clones -/

/-- `mtlk_nbuf_priv_extra_create_and_attach`, when there is memory. -/
def extraCreate (s : Queue σ ν) (ac : Ac) (front : Bool) : Queue σ ν :=
  { s with
    extra := Function.update s.extra s.extras (some ⟨1, ac, front⟩)
    extras := s.extras + 1 }

def extraAttach (s : Queue σ ν) (g : Nat) : Queue σ ν :=
  match s.extra g with
  | some e => s.setExtra g (some { e with refCnt := e.refCnt + 1 })
  | none => s

/-- Whether it was the last reference. -/
def extraDetach (s : Queue σ ν) (g : Nat) : Queue σ ν × Bool :=
  match s.extra g with
  | some e =>
    if e.refCnt - 1 = 0 then (s.setExtra g none, true)
    else (s.setExtra g (some { e with refCnt := e.refCnt - 1 }), false)
  | none => (s, false)

def giveBack (s : Queue σ ν) (ac : Ac) (g : Nat) : Queue σ ν :=
  { s.sizeDec ac with released := g ::ₘ s.released }

/-- Under the lock. -/
def enqueueCloneEnd (s : Queue σ ν) (g : Nat) : Queue σ ν :=
  match s.extra g with
  | some e => if (s.extraDetach g).2 then (s.extraDetach g).1.giveBack e.ac g
    else (s.extraDetach g).1
  | none => s

def releasePacket (s : Queue σ ν) (ac : Ac) (pkt : Pkt σ ν) : Queue σ ν :=
  match pkt.rmcast with
  | some g => s.enqueueCloneEnd g
  | none => s.sizeDec ac

/-! ## Under the lock -/

def accept (s : Queue σ ν) (pkt : Pkt σ ν) : Queue σ ν :=
  { s with accepted := pkt.id ::ₘ s.accepted }

/-- `mtlk_sq_enqueue_pkt`. -/
def enqueuePkt (s : Queue σ ν) (p : Ctx σ ν) (pkt : Pkt σ ν) (ac : Ac) (front : Bool) :
    Queue σ ν × Err :=
  if !front && (s.globalQueueLimit ac ≤ asUint32 (s.size ac) ||
      s.peerQueueLimit ac ≤ (s.buflist p ac).length) then (s, .noResources)
  else
    let l := if front then pkt :: s.buflist p ac else s.buflist p ac ++ [pkt]
    ((s.accept pkt).setBuflist p ac l, .ok)

/-- Takes out the packets of one list that `which` selects, from the front. -/
def cancelList (which : Pkt σ ν → Bool) (p : Ctx σ ν) (ac : Ac) (s : Queue σ ν) :
    List (Pkt σ ν) → Queue σ ν
  | [] => s
  | pkt :: l =>
    if which pkt then
      let s := s.setBuflist p ac ((s.buflist p ac).erase pkt)
      cancelList which p ac ((s.releasePacket ac pkt).free pkt) l
    else cancelList which p ac s l

def cancelAcs (which : Pkt σ ν → Bool) (p : Ctx σ ν) (acs : List Ac) (s : Queue σ ν) :
    Queue σ ν :=
  acs.foldl (fun s ac => cancelList which p ac s (s.buflist p ac)) s

/-- The categories in the order of their numbers. -/
def acs : List Ac := [.be, .bk, .vi, .vo]

def peerCtxCancelAllPackets (s : Queue σ ν) (p : Ctx σ ν) : Queue σ ν :=
  s.cancelAcs (fun _ => true) p acs

def peerCtxCancelAllPacketsForVap (s : Queue σ ν) (p : Ctx σ ν) (vap : ν) : Queue σ ν :=
  s.cancelAcs (fun pkt => pkt.vap = vap) p acs

def peerCtxInit (s : Queue σ ν) (p : Ctx σ ν) (limit : UInt32) : Queue σ ν :=
  { s with
    peers := fun ac => p :: s.peers ac
    buflist := Function.update s.buflist p fun _ => []
    tx := Function.update s.tx p (.init limit) }

/-- `mtlk_dlist_remove`. -/
def unlist (s : Queue σ ν) (p : Ctx σ ν) (ac : Ac) : Queue σ ν :=
  { s with peers := Function.update s.peers ac ((s.peers ac).erase p) }

def cleanupList (p : Ctx σ ν) (s : Queue σ ν) (ac : Ac) : Queue σ ν :=
  cancelList (fun _ => true) p ac (s.unlist p ac) (s.buflist p ac)

def peerCtxCleanup (s : Queue σ ν) (p : Ctx σ ν) : Queue σ ν := acs.foldl (cleanupList p) s

/-! ## Sending to the hardware -/

/-- What `process_packets_by_ac` did with a peer. -/
inductive Visit where
  | skipped
  | sent
  | stop (res : Err)
  deriving DecidableEq, Repr

/-- The packet is in the hardware, and `used` and `used_per_ac` count it. -/
def handOver (s : Queue σ ν) (p : Ctx σ ν) (ac : Ac) (pkt : Pkt σ ν) : Queue σ ν :=
  { s.setTx p ((s.tx p).incUsed.incUsedPerAc ac) with inHw := ⟨p, ac, pkt⟩ ::ₘ s.inHw }

/-- The first packet of a peer. `hw` says what `_mtlk_sq_send_to_hw` returns for each packet. -/
def visit (hw : Nat → Err) (ac : Ac) (s : Queue σ ν) (p : Ctx σ ν) : Queue σ ν × Visit :=
  match s.buflist p ac with
  | [] => (s, .skipped)
  | pkt :: rest =>
    if (s.tx p).overLimit ac then (s, .skipped)
    else
      let popped := s.setBuflist p ac rest
      match if s.hwTxProhibited then .prohib else hw pkt.id with
      | .ok => ((popped.releasePacket ac pkt).handOver p ac pkt, .sent)
      | .prohib | .noResources => (popped.setBuflist p ac (pkt :: rest), .stop .prohib)
      | .pktDropped => ((popped.releasePacket ac pkt).free pkt, .sent)
      | _ => ((popped.releasePacket ac pkt).free pkt, .stop .unknown)

/-- One round over the peers: how many packets were sent, and what it returns early. -/
def round (hw : Nat → Err) (ac : Ac) : Queue σ ν → List (Ctx σ ν) → Nat → Queue σ ν × Nat × Err
  | s, [], packetsSent => (s, packetsSent, .ok)
  | s, p :: ps, packetsSent =>
    match s.visit hw ac p with
    | (s, .skipped) => round hw ac s ps packetsSent
    | (s, .sent) => round hw ac s ps (packetsSent + 1)
    | (s, .stop res) => (s, packetsSent, res)

/-- `mtlk_dlist_shift`. -/
def shift (s : Queue σ ν) (ac : Ac) : Queue σ ν :=
  { s with peers := Function.update s.peers ac ((s.peers ac).rotate 1) }

/-- Rounds until one sends nothing. -/
def rounds (hw : Nat → Err) (ac : Ac) : Nat → Queue σ ν → Queue σ ν × Err
  | 0, s => (s, .ok)
  | fuel + 1, s =>
    match s.round hw ac (s.peers ac) 0 with
    | (s, 0, .ok) => (s.shift ac, .ok)
    | (s, _ + 1, .ok) => rounds hw ac fuel s
    | (s, _, res) => (s, res)

/-- What is in the lists of a category. -/
def queued (s : Queue σ ν) (ac : Ac) : List (Pkt σ ν) := (s.peers ac).flatMap (s.buflist · ac)

/-- Every round but the last takes a packet. -/
def processPacketsByAc (hw : Nat → Err) (s : Queue σ ν) (ac : Ac) : Queue σ ν × Err :=
  s.rounds hw ac ((s.queued ac).length + 1)

/-- What `mtlk_sq_flush` does between two looks at `flush_count`. -/
def processPackets (hw : Nat → Err) : List Ac → Queue σ ν → Queue σ ν
  | [], s => s
  | ac :: acs, s =>
    match s.processPacketsByAc hw ac with
    | (s, .ok) => processPackets hw acs s
    | (s, _) => s

/-! ## Runs -/

/-- The next step of a call, which is not in `calls` any more. -/
def resume (s : Queue σ ν) : Call σ ν → Queue σ ν
  | .enqueue nic pkt ac front =>
    match s.enqueuePkt (peerCtx nic pkt) pkt ac front with
    | (s, .ok) => s
    | (s, _) => (s.leaveOut pkt).begin (.refused ac)
  | .refused ac => s.sizeDec ac
  | .cloning nic nbuf g => s.begin (.cloning nic nbuf g)
  | .enqueueClone nic nbuf g clone =>
    match s.extra g with
    | some e =>
      match s.enqueuePkt (peerCtx nic clone) clone e.ac e.front with
      | (s, .ok) => s.begin (.cloning nic nbuf g)
      | (s, _) => (s.leaveOut clone).begin (.cloneRefused nic nbuf g)
    | none => s
  | .cloneRefused nic nbuf g => (s.extraDetach g).1.begin (.cloning nic nbuf g)
  | .uncount ac g => s.giveBack ac g

end Queue

/-- The peer that a call is about to put a packet in the list of. -/
def Call.target : Call σ ν → Option (Ctx σ ν)
  | .enqueue nic pkt _ _ => some (peerCtx nic pkt)
  | .enqueueClone nic _ _ clone => some (peerCtx nic clone)
  | _ => none

/-- `alloc` says whether there is memory. -/
inductive Event (σ ν : Type) where
  | enqueue (nic : ν) (dstSta : Option σ) (vap : ν) (urgent : Bool) (ac : Ac) (front : Bool)
  | cloneBegin (nic : ν) (dstSta : Option σ) (vap : ν) (urgent : Bool) (ac : Ac) (front : Bool)
      (alloc : Bool)
  | enqueueClone (nic : ν) (nbuf : Pkt σ ν) (extra : Nat) (sta : σ) (alloc : Bool)
  | cloneEnd (nic : ν) (nbuf : Pkt σ ν) (extra : Nat)
  | resume (c : Call σ ν)
  | flush (hw : Nat → Err)
  | cancelAllPackets (p : Ctx σ ν)
  | cancelAllPacketsForVap (p : Ctx σ ν) (vap : ν)
  | peerInit (p : Ctx σ ν) (limit : UInt32)
  | peerCleanup (p : Ctx σ ν)
  | confirm (x : Handed σ ν)
  | setTx (p : Ctx σ ν) (limit : UInt32) (psModeEnabled : Bool) (limitPerAc : Ac → UInt32)
  | setLimits (globalQueueLimit peerQueueLimit : Ac → Nat)
  | setHwTxProhibited (b : Bool)

namespace Queue

/-- The peer is in the lists of the queue. -/
def Listed (s : Queue σ ν) (p : Ctx σ ν) : Prop := ∀ ac, p ∈ s.peers ac

instance (s : Queue σ ν) (p : Ctx σ ν) : Decidable (s.Listed p) :=
  inferInstanceAs (Decidable (∀ _, _))

/-- A packet refers to its station, so a peer is cleaned up only when no call is about to put a
packet in its list, and packets are only sent to peers that are there. -/
def step (s : Queue σ ν) : Event σ ν → Queue σ ν
  | .enqueue nic dstSta vap urgent ac front =>
    let pkt : Pkt σ ν := ⟨s.pkts, dstSta, vap, urgent, none⟩
    let (ac, front) := switchIfUrgent pkt ac front
    if s.Listed (peerCtx nic pkt) then
      (s.allocPkt.sizeInc ac).begin (.enqueue nic pkt ac front)
    else s
  | .cloneBegin nic dstSta vap urgent ac front alloc =>
    let nbuf : Pkt σ ν := ⟨s.pkts, dstSta, vap, urgent, none⟩
    let (ac, front) := switchIfUrgent nbuf ac front
    -- nobody else sees the block before the group is counted
    if alloc then
      (((s.allocPkt.leaveOut nbuf).extraCreate ac front).sizeInc ac).begin
        (.cloning nic nbuf s.extras)
    else s
  | .enqueueClone nic nbuf g sta alloc =>
    let clone : Pkt σ ν := ⟨s.pkts, some sta, nbuf.vap, false, some g⟩
    if .cloning nic nbuf g ∈ s.calls ∧ s.Listed (.sta sta) ∧ alloc then
      let s := s.finish (.cloning nic nbuf g)
      (s.allocPkt.extraAttach g).begin (.enqueueClone nic nbuf g clone)
    else s
  | .cloneEnd nic nbuf g =>
    if .cloning nic nbuf g ∈ s.calls then
      let s := s.finish (.cloning nic nbuf g)
      match s.extra g with
      | some e => if (s.extraDetach g).2 then (s.extraDetach g).1.begin (.uncount e.ac g)
        else (s.extraDetach g).1
      | none => s
    else s
  | .resume c => if c ∈ s.calls then (s.finish c).resume c else s
  | .flush hw => s.processPackets hw Ac.byPriority
  | .cancelAllPackets p => if s.Listed p then s.peerCtxCancelAllPackets p else s
  | .cancelAllPacketsForVap p vap =>
    if s.Listed p then s.peerCtxCancelAllPacketsForVap p vap else s
  | .peerInit p limit => if ∀ ac, p ∉ s.peers ac then s.peerCtxInit p limit else s
  | .peerCleanup p =>
    if s.Listed p ∧ ∀ c ∈ s.calls, c.target ≠ some p then s.peerCtxCleanup p else s
  | .confirm x =>
    if x ∈ s.inHw then
      { s.setTx x.ctx ((s.tx x.ctx).onTxCfm x.ac) with
        inHw := s.inHw.erase x
        confirmed := x.pkt.id ::ₘ s.confirmed }
    else s
  | .setTx p limit psModeEnabled limitPerAc =>
    s.setTx p { s.tx p with
      limit := limit, psModeEnabled := psModeEnabled, limitPerAc := limitPerAc }
  | .setLimits globalQueueLimit peerQueueLimit =>
    { s with globalQueueLimit := globalQueueLimit, peerQueueLimit := peerQueueLimit }
  | .setHwTxProhibited b => { s with hwTxProhibited := b }

end Queue

end Wave300.Sq
