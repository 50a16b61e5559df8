import Wave300.Sq.InFlight

/-!
# Keep-alive packets

`core.c`: `mtlk_send_null_packet`, which does not go through the send queue, and `core_ext.c`:
`_mtlk_core_release_tx_data`, through which its packets come back with those of the queue. The
queue counts a packet after it is handed over, and so in a step of its own; the rest of a call is
one step. The statistics and the flow control are left out.
-/

namespace Wave300.Sq

open Wave300.Lib InFlight

/-- `UMI_USE_DCF`, which a keep-alive packet has for its access category. -/
def umiUseDcf : UInt8 := 0

/-- The entry of an array of `NTS_PRIORITIES`. -/
def acAt (index : UInt8) : Option Ac := Queue.acs[index.toNat]?

def Ac.index : Ac → UInt8
  | .be => 0
  | .bk => 1
  | .vi => 2
  | .vo => 3

@[simp] theorem acAt_index (ac : Ac) : acAt ac.index = some ac := by cases ac <;> rfl

/-- A network buffer, and what of its private part there is for a packet that is sent. -/
structure Nbuf (σ : Type) where
  id : Nat
  len : Nat
  dstSta : Option σ
  unicast : Bool
  rmcast : Bool
  txPckAc : UInt8
  deriving DecidableEq

/-- `mtlk_hw_data_req_mirror_t` -/
structure DataReq (σ : Type) where
  nbuf : Nbuf σ
  size : Nat
  deriving DecidableEq

/-- Where a packet goes that the queue is given. -/
inductive Dest (σ : Type) where
  | unicast (sta : σ)
  | reliableMulticast (sta : σ)
  | group

/-- The `mtlk_sq_peer_ctx_t` that the queue has a packet in: of a station, or `sq_broadcast_ctx`. -/
def Dest.peer {σ : Type} : Dest σ → Option σ
  | .unicast sta | .reliableMulticast sta => some sta
  | .group => none

/-- A packet as `mtlk_xmit` sends it. Off an access point all packets go to the station `ap`. -/
def Dest.nbuf {σ : Type} (isAp : Bool) (ap : Option σ) (id len : Nat) (ac : Ac) :
    Dest σ → Nbuf σ
  | .unicast sta => ⟨id, len, some sta, true, false, ac.index⟩
  | .reliableMulticast sta => ⟨id, len, some sta, false, true, ac.index⟩
  | .group => ⟨id, len, if isAp then none else ap, false, false, ac.index⟩

/-- `struct nic`. From `nbufs` on the fields are not in the source: how many buffers there have
been, which of them are keep-alive packets, what was given to `mtlk_df_nbuf_free`, and what the
queue has handed over and not counted. -/
structure Nic (σ : Type) where
  isAp : Bool
  connected : Bool
  dataStop : Bool
  tx : Option σ → PeerTx
  nofFreeBds : Nat
  inHw : Multiset (DataReq σ)
  nbufs : Nat
  nulls : Multiset Nat
  freed : Multiset Nat
  uncounted : Multiset (Sent (Option σ))

inductive Nic.Event (σ : Type) where
  | setNetState (connected : Bool)
  | setDataStop (stop : Bool)
  /-- `alloc` says whether there is a buffer, and `res` is what `send_data` returns. -/
  | sendNullPacket (sta : σ) (alloc : Bool) (res : Err)
  | xmit (dest : Dest σ) (ap : Option σ) (len : Nat) (ac : Ac)
  | count (packet : Sent (Option σ))
  | confirm (data : DataReq σ)

namespace Nic

variable {σ : Type}

def init (isAp : Bool) (limit : Option σ → UInt32) (nofBds : Nat) : Nic σ where
  isAp := isAp
  connected := false
  dataStop := false
  tx := fun peer => .init (limit peer)
  nofFreeBds := nofBds
  inHw := 0
  nbufs := 0
  nulls := 0
  freed := 0
  uncounted := 0

/-- The peer that `_mtlk_core_release_tx_data` takes a packet off. -/
def peerOf (isAp : Bool) (nbuf : Nbuf σ) : Option σ :=
  if isAp || nbuf.unicast || nbuf.rmcast then nbuf.dstSta else none

/-- `get_msg_to_send` -/
def getMsgToSend (s : Nic σ) : Option (Nic σ) :=
  if s.nofFreeBds = 0 then none else some { s with nofFreeBds := s.nofFreeBds - 1 }

/-- `release_msg_to_send` -/
def releaseMsgToSend (s : Nic σ) : Nic σ := { s with nofFreeBds := s.nofFreeBds + 1 }

def nbufFree (s : Nic σ) (nbuf : Nbuf σ) : Nic σ := { s with freed := nbuf.id ::ₘ s.freed }

/-- `mtlk_df_nbuf_alloc`, of a keep-alive packet, with what is stored in it. -/
def nullNbuf (s : Nic σ) (sta : σ) : Nbuf σ := ⟨s.nbufs, 0, some sta, true, false, umiUseDcf⟩

def allocNull (s : Nic σ) : Nic σ := { s with nbufs := s.nbufs + 1, nulls := s.nbufs ::ₘ s.nulls }

/-- What the queue does with a packet up to `send_data`. -/
def xmit (s : Nic σ) (dest : Dest σ) (ap : Option σ) (len : Nat) (ac : Ac) : Nic σ :=
  match s.getMsgToSend with
  | none => s
  | some s =>
    { s with
      nbufs := s.nbufs + 1
      inHw := ⟨dest.nbuf s.isAp ap s.nbufs len ac, len⟩ ::ₘ s.inHw
      uncounted := ⟨dest.peer, ac⟩ ::ₘ s.uncounted }

/-- The state with a packet of the queue in the hardware. -/
def handed (s : Nic σ) (dest : Dest σ) (ap : Option σ) (len : Nat) (ac : Ac) : Nic σ :=
  { s with
    nofFreeBds := s.nofFreeBds - 1
    nbufs := s.nbufs + 1
    inHw := ⟨dest.nbuf s.isAp ap s.nbufs len ac, len⟩ ::ₘ s.inHw
    uncounted := ⟨dest.peer, ac⟩ ::ₘ s.uncounted }

theorem xmit_cases (s : Nic σ) (dest : Dest σ) (ap : Option σ) (len : Nat) (ac : Ac) :
    s.xmit dest ap len ac = s ∨ s.xmit dest ap len ac = s.handed dest ap len ac := by
  rw [xmit, getMsgToSend]
  split
  next none => exact .inl rfl
  next found =>
    split at found
    · cases found
    · cases found
      exact .inr rfl

theorem peerOf_null (s : Nic σ) (sta : σ) : peerOf s.isAp (s.nullNbuf sta) = some sta := by
  simp [peerOf, nullNbuf]

/-- A packet comes back from the peer that the queue had it in. -/
theorem peerOf_dest (isAp : Bool) (ap : Option σ) (id len : Nat) (ac : Ac) (dest : Dest σ) :
    peerOf isAp (dest.nbuf isAp ap id len ac) = dest.peer := by
  cases dest <;> cases isAp <;> rfl

theorem acAt_nbuf (isAp : Bool) (ap : Option σ) (id len : Nat) (ac : Ac) (dest : Dest σ) :
    acAt (dest.nbuf isAp ap id len ac).txPckAc = some ac := by
  cases dest <;> exact acAt_index ac

theorem nbuf_id (isAp : Bool) (ap : Option σ) (id len : Nat) (ac : Ac) (dest : Dest σ) :
    (dest.nbuf isAp ap id len ac).id = id := by
  cases dest <;> rfl

variable [DecidableEq σ]

def setTx (s : Nic σ) (peer : Option σ) (x : PeerTx) : Nic σ :=
  { s with tx := Function.update s.tx peer x }

/-- Both counters of a peer, the one of a category only if there is such a category. -/
def incUsed (s : Nic σ) (peer : Option σ) (ac : UInt8) : Option (Nic σ) :=
  (acAt ac).map fun ac => s.setTx peer ((s.tx peer).incUsed.incUsedPerAc ac)

/-- `mtlk_sq_on_tx_cfm`, and what `mtlk_send_null_packet` does where `send_data` fails. -/
def decUsed (s : Nic σ) (peer : Option σ) (ac : UInt8) : Option (Nic σ) :=
  (acAt ac).map fun ac => s.setTx peer ((s.tx peer).onTxCfm ac)

/-- `mtlk_send_null_packet`; none, if it reaches outside of an array. -/
def sendNullPacket (s : Nic σ) (sta : σ) (alloc : Bool) (res : Err) : Option (Nic σ) :=
  if !s.connected then some s
  else if s.dataStop then some s
  else if 0 < asUint32 (s.tx (some sta)).used then some s
  else if !alloc then some s
  else
    let nbuf := s.nullNbuf sta
    match s.allocNull.getMsgToSend with
    | none => some (s.allocNull.nbufFree nbuf)
    | some s =>
      (s.incUsed (some sta) nbuf.txPckAc).bind fun s =>
        if res = .ok then some { s with inHw := ⟨nbuf, 0⟩ ::ₘ s.inHw }
        else (s.decUsed (some sta) nbuf.txPckAc).map releaseMsgToSend

/-- `_mtlk_core_release_tx_data` -/
def releaseTxData (s : Nic σ) (data : DataReq σ) : Option (Nic σ × Err) :=
  let res := if data.size = 0 then .unknown else .ok
  (s.decUsed (peerOf s.isAp data.nbuf) data.nbuf.txPckAc).map fun s =>
    (s.nbufFree data.nbuf, res)

/-- `_mtlk_mmb_handle_dat_cfm` -/
def handleDatCfm (s : Nic σ) (data : DataReq σ) : Option (Nic σ) :=
  (s.releaseTxData data).map fun (s, _) =>
    { s.releaseMsgToSend with inHw := s.inHw.erase data }

/-- None, if an array is left. -/
def step (s : Nic σ) : Event σ → Option (Nic σ)
  | .setNetState connected => some { s with connected }
  | .setDataStop dataStop => some { s with dataStop }
  | .sendNullPacket sta alloc res => s.sendNullPacket sta alloc res
  | .xmit dest ap len ac => some (s.xmit dest ap len ac)
  | .count packet =>
    if packet ∈ s.uncounted then
      (s.incUsed packet.peer packet.ac.index).map fun s =>
        { s with uncounted := s.uncounted.erase packet }
    else some s
  | .confirm data => if data ∈ s.inHw then s.handleDatCfm data else some s

/-! ## What is promised -/

/-- How often a buffer was released, and is in the hardware. -/
def places (s : Nic σ) (id : Nat) : Nat := s.freed.count id + s.inHw.countP (·.nbuf.id = id)

/-- What the hardware has of a peer. -/
def inFlight (s : Nic σ) (peer : Option σ) : Nat :=
  s.inHw.countP fun data => peerOf s.isAp data.nbuf = peer

def inFlightPerAc (s : Nic σ) (peer : Option σ) (ac : Ac) : Nat :=
  s.inHw.countP fun data => peerOf s.isAp data.nbuf = peer ∧ acAt data.nbuf.txPckAc = some ac

/-- The counters are what is in the hardware, so a packet that is back has left nothing in them. -/
structure Counted (s : Nic σ) : Prop where
  used : ∀ peer, (s.tx peer).used + ofPeer s.uncounted peer = s.inFlight peer
  usedPerAc : ∀ peer ac,
    (s.tx peer).usedPerAc ac + ofAc s.uncounted peer ac = s.inFlightPerAc peer ac

/-- A keep-alive packet that the hardware does not have is released, and once. -/
def Once (s : Nic σ) : Prop := ∀ id ∈ s.nulls, s.places id = 1

structure Balanced (s : Nic σ) : Prop extends Counted s where
  once : s.Once

/-- A step in a run, which ends where an array is left. -/
def next (s : Option (Nic σ)) (e : Event σ) : Option (Nic σ) := s.bind (·.step e)

/-- A step stays inside of the arrays and leaves everything balanced. -/
def Right (s : Option (Nic σ)) (e : Event σ) : Prop := ∃ t, next s e = some t ∧ t.Balanced

/-- `send_data` is called for a keep-alive packet and fails. -/
def SendFails (s : Nic σ) : Event σ → Prop
  | .sendNullPacket sta alloc res =>
    (s.connected ∧ ¬ s.dataStop ∧ asUint32 (s.tx (some sta)).used = 0) ∧
      alloc ∧ s.nofFreeBds ≠ 0 ∧ res ≠ .ok
  | _ => False

/-- No `send_data` fails. -/
def Sends (s : Option (Nic σ)) (e : Event σ) : Prop := ∀ s' ∈ s, ¬ s'.SendFails e

variable {s t : Nic σ}

/-- With the same packets of a peer on the way, its counters are what they were. -/
theorem Counted.restored (h : s.Counted) (h' : t.Counted) {peer : Option σ}
    (inFlight : t.inFlight peer = s.inFlight peer)
    (inFlightPerAc : ∀ ac, t.inFlightPerAc peer ac = s.inFlightPerAc peer ac)
    (uncounted : t.uncounted = s.uncounted) :
    (t.tx peer).used = (s.tx peer).used ∧ (t.tx peer).usedPerAc = (s.tx peer).usedPerAc := by
  have used := h.used peer
  have used' := h'.used peer
  rw [inFlight, uncounted] at used'
  refine ⟨by omega, funext fun ac => ?_⟩
  have usedPerAc := h.usedPerAc peer ac
  have usedPerAc' := h'.usedPerAc peer ac
  rw [inFlightPerAc, uncounted] at usedPerAc'
  omega

/-! ## One step -/

theorem used_setTx {peer : Option σ} {x : PeerTx} {n : Int}
    (change : x.used = (s.tx peer).used + n) (peer' : Option σ) :
    ((s.setTx peer x).tx peer').used = (s.tx peer').used + if peer = peer' then n else 0 :=
  InFlight.used_setTx (s := ⟨s.tx, none, 0, 0⟩) change peer'

theorem usedPerAc_setTx {peer : Option σ} {x : PeerTx} {ac : Ac} {n : Int}
    (change : ∀ ac', x.usedPerAc ac' = (s.tx peer).usedPerAc ac' + if ac = ac' then n else 0)
    (peer' : Option σ) (ac' : Ac) : ((s.setTx peer x).tx peer').usedPerAc ac' =
      (s.tx peer').usedPerAc ac' + if peer = peer' ∧ ac = ac' then n else 0 :=
  InFlight.usedPerAc_setTx (s := ⟨s.tx, none, 0, 0⟩) change peer' ac'

theorem incUsed_index (s : Nic σ) (peer : Option σ) (ac : Ac) :
    s.incUsed peer ac.index = some (s.setTx peer ((s.tx peer).incUsed.incUsedPerAc ac)) := by
  simp [incUsed]

theorem decUsed_of {index : UInt8} {ac : Ac} (inside : acAt index = some ac) (s : Nic σ)
    (peer : Option σ) : s.decUsed peer index = some (s.setTx peer ((s.tx peer).onTxCfm ac)) := by
  simp [decUsed, inside]

theorem onTxCfm_inc (x : PeerTx) (ac : Ac) : (x.incUsed.incUsedPerAc ac).onTxCfm ac = x := by
  simp [PeerTx.onTxCfm, PeerTx.incUsed, PeerTx.incUsedPerAc, PeerTx.decUsed, PeerTx.decUsedPerAc]

theorem setTx_back (s : Nic σ) (peer : Option σ) (x : PeerTx) :
    (s.setTx peer x).setTx peer (s.tx peer) = s := by
  simp [setTx]

/-- What fails is taken off as it was counted. -/
theorem decUsed_inc (s : Nic σ) (peer : Option σ) (ac : Ac) :
    (s.setTx peer ((s.tx peer).incUsed.incUsedPerAc ac)).decUsed peer ac.index = some s := by
  have now : (s.setTx peer ((s.tx peer).incUsed.incUsedPerAc ac)).tx peer =
      (s.tx peer).incUsed.incUsedPerAc ac := Function.update_self ..
  rw [decUsed_of (acAt_index ac), now, onTxCfm_inc, setTx_back]

/-- The state with a keep-alive packet in the hardware. -/
def sent (s : Nic σ) (sta : σ) : Nic σ :=
  { s.allocNull.setTx (some sta) ((s.tx (some sta)).incUsed.incUsedPerAc .be) with
    nofFreeBds := s.nofFreeBds - 1
    inHw := ⟨s.nullNbuf sta, 0⟩ ::ₘ s.inHw }

/-- All checks are passed, and there are a buffer and a message. -/
theorem sendNullPacket_tried {sta : σ} (connected : s.connected = true)
    (flows : s.dataStop = false) (idle : asUint32 (s.tx (some sta)).used = 0)
    (messages : s.nofFreeBds ≠ 0) (res : Err) : s.sendNullPacket sta true res =
      if res = .ok then some (s.sent sta) else some s.allocNull := by
  have message : s.allocNull.getMsgToSend =
      some { s.allocNull with nofFreeBds := s.nofFreeBds - 1 } := if_neg messages
  have counted := incUsed_index { s.allocNull with nofFreeBds := s.nofFreeBds - 1 } (some sta) .be
  have back := decUsed_inc { s.allocNull with nofFreeBds := s.nofFreeBds - 1 } (some sta) .be
  simp only [sendNullPacket, connected, flows, idle, message, Bool.not_true, Bool.false_eq_true,
    if_false, Nat.lt_irrefl]
  rw [show (s.nullNbuf sta).txPckAc = Ac.be.index from rfl, counted, Option.bind_some]
  by_cases ok : res = .ok
  · rw [if_pos ok, if_pos ok]
    rfl
  · rw [if_neg ok, if_neg ok, back, Option.map_some, releaseMsgToSend,
      Nat.sub_add_cancel (Nat.pos_of_ne_zero messages)]
    rfl

/-- All that comes of a keep-alive packet: it is not tried, there is no message for it, it is
sent, or it fails and its buffer is lost. -/
theorem sendNullPacket_cases (s : Nic σ) (sta : σ) (alloc : Bool) (res : Err) :
    (¬ s.SendFails (.sendNullPacket sta alloc res) ∧
      (s.sendNullPacket sta alloc res = some s ∨
        s.sendNullPacket sta alloc res = some (s.allocNull.nbufFree (s.nullNbuf sta)) ∨
        s.sendNullPacket sta alloc res = some (s.sent sta))) ∨
    (s.SendFails (.sendNullPacket sta alloc res) ∧
      s.sendNullPacket sta alloc res = some s.allocNull) := by
  rw [SendFails]
  by_cases connected : s.connected
  case neg => simp [sendNullPacket, connected]
  by_cases stop : s.dataStop
  case pos => simp [sendNullPacket, connected, stop]
  by_cases idle : asUint32 (s.tx (some sta)).used = 0
  case neg => simp [sendNullPacket, connected, stop, idle, Nat.pos_of_ne_zero idle]
  cases alloc with
  | false => simp [sendNullPacket, connected, stop, idle]
  | true =>
    by_cases empty : s.nofFreeBds = 0
    · simp [sendNullPacket, connected, stop, idle, empty, getMsgToSend, allocNull]
    · rw [sendNullPacket_tried connected (Bool.eq_false_of_not_eq_true stop) idle empty]
      by_cases ok : res = .ok
      · exact .inl ⟨fun fails => fails.2.2.2 ok, .inr (.inr (if_pos ok))⟩
      · exact .inr ⟨⟨⟨connected, stop, idle⟩, rfl, empty, ok⟩, if_neg ok⟩

/-- What every step keeps, also where a buffer is lost. -/
structure Sound (s : Nic σ) : Prop extends Counted s where
  fresh : ∀ id, s.nbufs ≤ id → id ∉ s.nulls ∧ s.places id = 0
  inArray : ∀ data ∈ s.inHw, ∃ ac, acAt data.nbuf.txPckAc = some ac

theorem Sound.allocNull (h : s.Sound) : s.allocNull.Sound where
  fresh id le := by
    obtain ⟨new, nowhere⟩ := h.fresh id (Nat.le_of_succ_le le)
    refine ⟨?_, nowhere⟩
    rw [Nic.allocNull, Multiset.mem_cons, not_or]
    exact ⟨Nat.ne_of_gt le, new⟩
  inArray := h.inArray
  used := h.used
  usedPerAc := h.usedPerAc

theorem Sound.nbufFree (h : s.Sound) {nbuf : Nbuf σ} (old : nbuf.id < s.nbufs) :
    (s.nbufFree nbuf).Sound where
  fresh id le := by
    obtain ⟨new, nowhere⟩ := h.fresh id le
    refine ⟨new, ?_⟩
    have other : id ≠ nbuf.id := Nat.ne_of_gt (Nat.lt_of_lt_of_le old le)
    rw [places, Nic.nbufFree, Multiset.count_cons_of_ne other]
    exact nowhere
  inArray := h.inArray
  used := h.used
  usedPerAc := h.usedPerAc

section Cons
variable {data : DataReq σ}

/-- With `s` and `t` the other way round, what it is for a packet to be back. -/
theorem inFlight_cons (isAp : t.isAp = s.isAp) (inHw : t.inHw = data ::ₘ s.inHw)
    (peer : Option σ) :
    t.inFlight peer = s.inFlight peer + if peerOf s.isAp data.nbuf = peer then 1 else 0 := by
  rw [inFlight, inFlight, isAp, inHw, Multiset.countP_cons]

theorem inFlightPerAc_cons (isAp : t.isAp = s.isAp) (inHw : t.inHw = data ::ₘ s.inHw) {ac : Ac}
    (inside : acAt data.nbuf.txPckAc = some ac) (peer : Option σ) (ac' : Ac) :
    t.inFlightPerAc peer ac' = s.inFlightPerAc peer ac' +
      if peerOf s.isAp data.nbuf = peer ∧ ac = ac' then 1 else 0 := by
  rw [inFlightPerAc, inFlightPerAc, isAp, inHw, Multiset.countP_cons, inside]
  simp only [Option.some_inj]

end Cons

theorem Counted.sent (h : s.Counted) (sta : σ) : (s.sent sta).Counted where
  used peer := by
    have before := h.used peer
    have inc : ((s.sent sta).tx peer).used = _ :=
      used_setTx (s := s.allocNull) (x := (s.tx (some sta)).incUsed.incUsedPerAc .be) rfl peer
    have more := inFlight_cons (s := s) (t := s.sent sta) rfl rfl peer
    rw [inc, more, peerOf_null]
    change (s.tx peer).used + _ + (ofPeer s.uncounted peer : Int) = _
    push_cast
    omega
  usedPerAc peer ac := by
    have before := h.usedPerAc peer ac
    have inc : ((s.sent sta).tx peer).usedPerAc ac = _ := usedPerAc_setTx (s := s.allocNull)
      (incUsedPerAc_apply (s.tx (some sta)).incUsed .be) peer ac
    have more := inFlightPerAc_cons (s := s) (t := s.sent sta) rfl rfl (acAt_index .be) peer ac
    rw [inc, more, peerOf_null]
    change (s.tx peer).usedPerAc ac + _ + (ofAc s.uncounted peer ac : Int) = _
    push_cast
    omega

theorem Sound.sent (h : s.Sound) (sta : σ) : (s.sent sta).Sound where
  toCounted := h.toCounted.sent sta
  fresh id le := by
    obtain ⟨new, nowhere⟩ := h.allocNull.fresh id le
    refine ⟨new, ?_⟩
    have other : (s.nullNbuf sta).id ≠ id := Nat.ne_of_lt le
    rw [places, Nic.sent, Multiset.countP_cons, if_neg other]
    exact nowhere
  inArray data mem := by
    obtain rfl | old := Multiset.mem_cons.1 mem
    · exact ⟨.be, rfl⟩
    · exact h.inArray data old

theorem Counted.handed (h : s.Counted) (dest : Dest σ) (ap : Option σ) (len : Nat) (ac : Ac) :
    (s.handed dest ap len ac).Counted where
  used peer := by
    have before := h.used peer
    have more := inFlight_cons (s := s) (t := s.handed dest ap len ac) rfl rfl peer
    rw [more, peerOf_dest]
    simp only [ofPeer, Nic.handed, Multiset.countP_cons] at before ⊢
    push_cast
    omega
  usedPerAc peer ac' := by
    have before := h.usedPerAc peer ac'
    have more := inFlightPerAc_cons (s := s) (t := s.handed dest ap len ac) rfl rfl
      (acAt_nbuf ..) peer ac'
    rw [more, peerOf_dest]
    simp only [ofAc, Nic.handed, Multiset.count_cons, eq_comm (b := Sent.mk dest.peer ac),
      sent_eq_iff] at before ⊢
    push_cast
    omega

theorem Sound.handed (h : s.Sound) (dest : Dest σ) (ap : Option σ) (len : Nat) (ac : Ac) :
    (s.handed dest ap len ac).Sound where
  toCounted := h.toCounted.handed dest ap len ac
  fresh id le := by
    obtain ⟨new, nowhere⟩ := h.fresh id (Nat.le_of_succ_le le)
    have other : (dest.nbuf s.isAp ap s.nbufs len ac).id ≠ id := by
      rw [nbuf_id]
      exact Nat.ne_of_lt le
    rw [places, Nic.handed, Multiset.countP_cons, if_neg other]
    exact ⟨new, nowhere⟩
  inArray data mem := by
    obtain rfl | old := Multiset.mem_cons.1 mem
    · exact ⟨ac, acAt_nbuf ..⟩
    · exact h.inArray data old

/-- The state with a packet counted. -/
def taken (s : Nic σ) (packet : Sent (Option σ)) : Nic σ :=
  { s.setTx packet.peer ((s.tx packet.peer).incUsed.incUsedPerAc packet.ac) with
    uncounted := s.uncounted.erase packet }

theorem Counted.taken (h : s.Counted) {packet : Sent (Option σ)} (mem : packet ∈ s.uncounted) :
    (s.taken packet).Counted where
  used peer := by
    have before := h.used peer
    have inc : ((s.taken packet).tx peer).used = _ :=
      used_setTx (x := (s.tx packet.peer).incUsed.incUsedPerAc packet.ac) rfl peer
    have fewer := ofPeer_erase mem peer
    change _ + (ofPeer (s.uncounted.erase packet) peer : Int) = s.inFlight peer
    rw [inc]
    push_cast [fewer] at before ⊢
    omega
  usedPerAc peer ac := by
    have before := h.usedPerAc peer ac
    have inc : ((s.taken packet).tx peer).usedPerAc ac = _ :=
      usedPerAc_setTx (incUsedPerAc_apply (s.tx packet.peer).incUsed packet.ac) peer ac
    have fewer := ofAc_erase mem peer ac
    change _ + (ofAc (s.uncounted.erase packet) peer ac : Int) = s.inFlightPerAc peer ac
    rw [inc]
    push_cast [fewer] at before ⊢
    omega

theorem Sound.taken (h : s.Sound) {packet : Sent (Option σ)} (mem : packet ∈ s.uncounted) :
    (s.taken packet).Sound :=
  ⟨h.toCounted.taken mem, h.fresh, h.inArray⟩

/-- The state with a packet back. -/
def back (s : Nic σ) (data : DataReq σ) (ac : Ac) : Nic σ :=
  let peer := peerOf s.isAp data.nbuf
  { s.setTx peer ((s.tx peer).onTxCfm ac) with
    nofFreeBds := s.nofFreeBds + 1
    inHw := s.inHw.erase data
    freed := data.nbuf.id ::ₘ s.freed }

theorem handleDatCfm_of {data : DataReq σ} {ac : Ac} (inside : acAt data.nbuf.txPckAc = some ac) :
    s.handleDatCfm data = some (s.back data ac) := by
  rw [handleDatCfm, releaseTxData, decUsed_of inside]
  rfl

theorem places_back {data : DataReq σ} (mem : data ∈ s.inHw) (ac : Ac) (id : Nat) :
    (s.back data ac).places id = s.places id := by
  have fewer := Multiset.countP_cons (·.nbuf.id = id) data (s.inHw.erase data)
  rw [Multiset.cons_erase mem] at fewer
  rw [places, places, fewer, back, Multiset.count_cons]
  simp only [eq_comm (a := id)]
  omega

theorem Counted.back (h : s.Counted) {data : DataReq σ} {ac : Ac} (mem : data ∈ s.inHw)
    (inside : acAt data.nbuf.txPckAc = some ac) : (s.back data ac).Counted where
  used peer := by
    have before := h.used peer
    have one : ∀ x : PeerTx, (x.onTxCfm ac).used = x.used + -1 := fun x => Int.sub_eq_add_neg
    have dec : ((s.back data ac).tx peer).used = _ := used_setTx (one _) peer
    have fewer := inFlight_cons (s := s.back data ac) (t := s) rfl
      (Multiset.cons_erase mem).symm peer
    change _ + (ofPeer s.uncounted peer : Int) = _
    rw [dec]
    change s.inFlight peer = _ + (if peerOf s.isAp data.nbuf = peer then 1 else 0) at fewer
    by_cases same : peerOf s.isAp data.nbuf = peer
    · rw [if_pos same] at fewer ⊢
      omega
    · rw [if_neg same] at fewer ⊢
      omega
  usedPerAc peer ac' := by
    have before := h.usedPerAc peer ac'
    have dec : ((s.back data ac).tx peer).usedPerAc ac' = _ :=
      usedPerAc_setTx (decUsedPerAc_apply (s.tx (peerOf s.isAp data.nbuf)).decUsed ac) peer ac'
    have fewer := inFlightPerAc_cons (s := s.back data ac) (t := s) rfl
      (Multiset.cons_erase mem).symm inside peer ac'
    change _ + (ofAc s.uncounted peer ac' : Int) = _
    rw [dec]
    change s.inFlightPerAc peer ac' =
      _ + (if peerOf s.isAp data.nbuf = peer ∧ ac = ac' then 1 else 0) at fewer
    by_cases same : peerOf s.isAp data.nbuf = peer ∧ ac = ac'
    · rw [if_pos same] at fewer ⊢
      omega
    · rw [if_neg same] at fewer ⊢
      omega

theorem Sound.back (h : s.Sound) {data : DataReq σ} {ac : Ac} (mem : data ∈ s.inHw)
    (inside : acAt data.nbuf.txPckAc = some ac) : (s.back data ac).Sound where
  toCounted := h.toCounted.back mem inside
  fresh id le := by
    rw [places_back mem]
    exact h.fresh id le
  inArray data' mem' := h.inArray data' (Multiset.mem_of_mem_erase mem')

/-- A new keep-alive packet that is somewhere. -/
theorem Once.new (once : s.Once) (h : s.Sound) (nulls : t.nulls = s.nbufs ::ₘ s.nulls)
    (places : ∀ id, t.places id = s.places id + if s.nbufs = id then 1 else 0) : t.Once := by
  intro id mem
  rw [nulls, Multiset.mem_cons] at mem
  rw [places]
  obtain rfl | old := mem
  · rw [(h.fresh s.nbufs le_rfl).2, if_pos rfl]
  · have other : s.nbufs ≠ id := fun same => (h.fresh s.nbufs le_rfl).1 (same ▸ old)
    rw [once id old, if_neg other]

omit [DecidableEq σ] in
theorem places_free (s : Nic σ) (sta : σ) (id : Nat) :
    (s.allocNull.nbufFree (s.nullNbuf sta)).places id =
      s.places id + if s.nbufs = id then 1 else 0 := by
  change (s.nbufs ::ₘ s.freed).count id + _ = s.freed.count id + _ + _
  rw [Multiset.count_cons, Nat.add_right_comm]
  simp only [eq_comm (a := id)]
  rfl

theorem places_sent (s : Nic σ) (sta : σ) (id : Nat) :
    (s.sent sta).places id = s.places id + if s.nbufs = id then 1 else 0 := by
  rw [places, sent, Multiset.countP_cons, ← Nat.add_assoc]
  rfl

/-- What is lost is in neither place. -/
theorem Sound.not_once_allocNull (h : s.Sound) : ¬ s.allocNull.Once := by
  intro once
  have nowhere := (h.fresh s.nbufs le_rfl).2
  have lost : s.places s.nbufs = 1 := once s.nbufs (Multiset.mem_cons_self ..)
  rw [nowhere] at lost
  cases lost

theorem Sound.handed_once (h : s.Sound) (once : s.Once) (dest : Dest σ) (ap : Option σ)
    (len : Nat) (ac : Ac) : (s.handed dest ap len ac).Once := by
  intro id mem
  have other : (dest.nbuf s.isAp ap s.nbufs len ac).id ≠ id := by
    rw [nbuf_id]
    rintro rfl
    exact (h.fresh s.nbufs le_rfl).1 mem
  rw [places, Nic.handed, Multiset.countP_cons, if_neg other]
  exact once id mem

/-- A step stays inside of the arrays, and of what was balanced it loses a buffer exactly where
`send_data` fails. -/
theorem step_sound (h : s.Sound) (e : Event σ) :
    ∃ t, s.step e = some t ∧ t.Sound ∧ (s.Once → (t.Once ↔ ¬ s.SendFails e)) := by
  cases e with
  | setNetState connected =>
    exact ⟨_, rfl, ⟨⟨h.used, h.usedPerAc⟩, h.fresh, h.inArray⟩, fun once => iff_of_true once id⟩
  | setDataStop stop =>
    exact ⟨_, rfl, ⟨⟨h.used, h.usedPerAc⟩, h.fresh, h.inArray⟩, fun once => iff_of_true once id⟩
  | sendNullPacket sta alloc res =>
    obtain ⟨fine, same | free | sent⟩ | ⟨fails, lost⟩ := s.sendNullPacket_cases sta alloc res
    · exact ⟨s, same, h, fun once => iff_of_true once fine⟩
    · refine ⟨_, free, h.allocNull.nbufFree (Nat.lt_succ_self _), fun once => ?_⟩
      exact iff_of_true (once.new h rfl (s.places_free sta)) fine
    · exact ⟨_, sent, h.sent sta, fun once => iff_of_true (once.new h rfl (s.places_sent sta)) fine⟩
    · exact ⟨_, lost, h.allocNull, fun _ => iff_of_false h.not_once_allocNull (not_not_intro fails)⟩
  | xmit dest ap len ac =>
    obtain same | handed := s.xmit_cases dest ap len ac
    · exact ⟨s, congrArg some same, h, fun once => iff_of_true once id⟩
    · refine ⟨_, congrArg some handed, h.handed dest ap len ac, fun once => ?_⟩
      exact iff_of_true (h.handed_once once dest ap len ac) id
  | count packet =>
    rw [step]
    split
    case isTrue mem =>
      rw [incUsed_index]
      exact ⟨s.taken packet, rfl, h.taken mem, fun once => iff_of_true once id⟩
    case isFalse => exact ⟨s, rfl, h, fun once => iff_of_true once id⟩
  | confirm data =>
    rw [step]
    split
    case isTrue mem =>
      obtain ⟨ac, inside⟩ := h.inArray data mem
      refine ⟨s.back data ac, handleDatCfm_of inside, h.back mem inside, fun once => ?_⟩
      exact iff_of_true (fun id null => (places_back mem ac id).trans (once id null)) id
    case isFalse => exact ⟨s, rfl, h, fun once => iff_of_true once id⟩

/-- Along a run: what is kept as long as no `send_data` fails. -/
def Fine (s : Option (Nic σ)) : Prop := ∃ s', s = some s' ∧ s'.Sound ∧ s'.Once

theorem right_iff {s : Option (Nic σ)} (fine : Fine s) (e : Event σ) : Right s e ↔ Sends s e := by
  obtain ⟨s, rfl, sound, once⟩ := fine
  obtain ⟨t, step, sound', once'⟩ := step_sound sound e
  constructor
  · rintro ⟨t', step', balanced⟩ s' here
    obtain rfl : s = s' := Option.some_inj.1 here
    obtain rfl : t = t' := Option.some_inj.1 (step.symm.trans step')
    exact (once' once).1 balanced.once
  · intro sends
    exact ⟨t, step, ⟨sound'.toCounted, (once' once).2 (sends s rfl)⟩⟩

theorem next_fine {s : Option (Nic σ)} (fine : Fine s) (e : Event σ) (right : Right s e) :
    Fine (next s e) := by
  obtain ⟨s, rfl, sound, once⟩ := fine
  obtain ⟨t, step, sound', -⟩ := step_sound sound e
  obtain ⟨t', step', balanced⟩ := right
  obtain rfl : t = t' := Option.some_inj.1 (step.symm.trans step')
  exact ⟨t, step, sound', balanced.once⟩

theorem init_sound (isAp : Bool) (limit : Option σ → UInt32) (nofBds : Nat) :
    (init isAp limit nofBds).Sound where
  used _ := rfl
  usedPerAc _ _ := rfl
  fresh id _ := by simp [init, places]
  inArray data mem := absurd mem (Multiset.notMem_zero data)

/-- The counters and the arrays are right whatever fails. -/
theorem run_counted {isAp : Bool} {limit : Option σ → UInt32} {nofBds : Nat} {s : Option (Nic σ)}
    (run : Runs next (fun _ _ => True) (some (init isAp limit nofBds)) s) :
    ∃ s', s = some s' ∧ s'.Counted := by
  have sound : ∃ s', s = some s' ∧ s'.Sound := by
    apply run.invariant
    · exact ⟨_, rfl, init_sound isAp limit nofBds⟩
    rintro _ e ⟨s, rfl, sound⟩ -
    obtain ⟨t, step, sound', -⟩ := step_sound sound e
    exact ⟨t, step, sound'⟩
  obtain ⟨s', here, sound⟩ := sound
  exact ⟨s', here, sound.toCounted⟩

/-- Over every run, the keep-alive packets are balanced and no array is left exactly where no
`send_data` fails for one. -/
theorem nullPackets_right_iff (isAp : Bool) (limit : Option σ → UInt32) (nofBds : Nat)
    (events : List (Event σ)) : Allowed next Right (some (init isAp limit nofBds)) events ↔
      Allowed next Sends (some (init isAp limit nofBds)) events := by
  have start : Fine (some (init isAp limit nofBds)) :=
    ⟨_, rfl, init_sound isAp limit nofBds, fun id null => absurd null (Multiset.notMem_zero id)⟩
  exact allowed_iff start (fun s e fine => right_iff fine e) fun s e fine => next_fine fine e

/-- A station is connected, and the hardware does not take its keep-alive packet. -/
def notTaken : List (Event Unit) := [.setNetState true, .sendNullPacket () true .unknown]

/-- The buffer is not released. -/
theorem lost_notTaken : ¬ ∀ (isAp : Bool) (limit : Option Unit → UInt32) (nofBds : Nat)
    (events : List (Event Unit)), Allowed next Right (some (init isAp limit nofBds)) events := by
  intro all
  obtain ⟨-, ⟨t, step, balanced⟩, -⟩ := all false (fun _ => 64) 16 notTaken
  cases step
  exact absurd (balanced.once 0 (by decide)) (by decide)

end Nic

end Wave300.Sq
