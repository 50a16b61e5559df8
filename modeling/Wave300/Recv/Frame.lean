import Wave300.Recv.Buffers
import Wave300.Rx.Exact

/-!
# A received data frame

`handle_rx_ind` for a data frame, with the caller in `hw_mmb.c` that frees the buffer it gets back.
What is done to the bytes of the frame is in `Rx`; here are the look-ups and the buffers.
-/

namespace Wave300.Recv

open Hstdb (Sta Addr hashFind)
open Rx (Buf Parse mtlkParseAMsdu)

/-- What is read of a data frame: `hSource` and `hDest` are those of the Ethernet header that a
regular MSDU gets, `subDest` those of the subframes of an A-MSDU, of which `bytes` are the first
`len` bytes of the body. `alloc` tells which clones can be made, `hst` what the system answers for a
host. -/
structure Frame where
  addr1 : Addr
  addr2 : Addr
  nullPkt : Bool
  aMsdu : Bool
  qos : Bool
  priority : Fin 8
  seq : Nat
  now : Nat
  hSource : Addr
  hDest : Addr
  hst : Hstdb.Env
  alloc : Nat → Bool
  bytes : Nat → UInt8
  len : Nat
  subDest : Nat → Addr

/-- `mtlk_osal_eth_is_broadcast` -/
def isBroadcast (mac : Addr) : Bool := decide (mac = fun _ => 0xff)

/-- `mtlk_osal_eth_is_multicast` -/
def isMulticast (mac : Addr) : Bool := mac 0 &&& 1 != 0

/-- The buffers over `sub_frame`, at most `fuel + 1` of them. -/
def subFrames (sub : Buf → Option Buf) : Nat → Buf → List Buf
  | 0, b => [b]
  | fuel + 1, b =>
    match sub b with
    | some b' => b :: subFrames sub fuel b'
    | none => [b]

/-- The buffer that is meant: the one received or one of the clones. -/
def nbufOf (b : Nbuf) (made : List Nbuf) : Buf → Nbuf
  | .original => b
  | .clone i => made.getD i b

namespace World

variable (env : Nat → Answers) (c : Core) (f : Frame)

/-- What `mtlk_hstdb_find_sta` finds. -/
def hostSta (w : World) (mac : Addr) : Option Sta := (hashFind mac w.db.hosts).bind Hstdb.Host.sta

/-- `mtlk_nbuf_priv_set_dst_sta`, unless the frame would go back to where it came from. -/
def setDstSta (s : Sta) (b : Nbuf) (w : World) : World × Nbuf :=
  if b.src = some s then (w, b) else (w.incref (some s), { b with dst := some s, forward := true })

/-- `analyze_rx_packet` -/
def analyzeRxPacket (hDest : Addr) (b : Nbuf) (w : World) : World × Nbuf :=
  let b := { b with consume := b.consume || c.promiscuous }
  let forwarding := c.isAp && c.apForwarding
  if hDest = c.macAddr then (w, { b with consume := true })
  else if isBroadcast hDest then
    (w, { b with broadcast := true, consume := true, forward := b.forward || forwarding })
  else if isMulticast hDest then
    (w, { b with
      multicast := true
      forward := b.forward || forwarding
      consume := b.consume || c.mcGroup hDest })
  else
    let b := { b with unicast := true }
    if forwarding then
      let dstSta := match w.stadb hDest with
        | some s => some s
        | none => if c.bridgeMode = BridgeMode.wds then w.hostSta hDest else none
      match dstSta with
      | some s =>
        let (w, b) := (w.found s).setDstSta s b
        (w.lost s, b)
      | none => (w, b)
    else (w, b)

/-- The first clones that `mtlk_parse_a_msdu` makes, as `analyze_rx_packet` leaves them. -/
def makeClones (b : Nbuf) : Nat → World → World × List Nbuf
  | 0, w => (w, [])
  | k + 1, w =>
    let (w, made) := makeClones b k w
    let (w, clone) := (w.incref b.src).analyzeRxPacket c (f.subDest k) { b with dst := none }
    (w, made ++ [clone])

/-- `mtlk_parse_a_msdu`, for the references: the chain from the buffer that is dispatched or handed
back, and whether the result is `MTLK_ERR_OK`. -/
def parseAMsdu (b : Nbuf) (w : World) : World × List Nbuf × Bool :=
  match mtlkParseAMsdu f.alloc f.bytes f.len with
  | some (t, ok) =>
    let (w, made) := w.makeClones c f b t.clones.length
    let (w, b) :=
      if t.subNbufStored = some .original then w.analyzeRxPacket c (f.subDest t.clones.length) b
      else (w, b)
    let first := if ok then t.subNbufFirst else .original
    (w, (subFrames t.subFrame t.clones.length first).map (nbufOf b made), ok)
  | none => (w, [b], false)

/-- The end of `handle_rx_ind`: a chain is put in order, or checked and sent up. -/
def dispatch (s : Sta) (chain : List Nbuf) (w : World) : World :=
  if (chain.head?.any Nbuf.directed) && (c.isAp || f.qos) then
    w.reorderPacket env c f.now (s, f.priority) f.seq chain
  else w.detectReplayOrSendup env c chain

/-- The regular MSDU: `none` where the frame of an own host came back. -/
def checkHost (s : Sta) (w : World) : World × Bool :=
  if c.bridgeMode = .wds ∧ f.hSource ≠ s.addr then
    if c.isAp then ({ w with db := w.db.updateHost f.hst f.hSource s }, true)
    else
      match w.hostSta f.hSource with
      | some s' => (w.found s', false)
      | none => (w, true)
  else (w, true)

/-- `handle_rx_ind` after the station is found, with the chain that is left for the caller to
free. -/
def handleData (s : Sta) (b : Nbuf) (w : World) : World × List Nbuf :=
  if f.nullPkt then (w, [b])
  else
    let b := { b with directed := decide (f.addr1 = c.macAddr) }
    if f.aMsdu then
      let (w, chain, ok) := w.parseAMsdu c f b
      if ok then (w.dispatch env c f s chain, []) else (w, chain)
    else
      let (w, pass) := w.checkHost c f s
      if pass then
        let (w, b) := w.analyzeRxPacket c f.hDest b
        (w.dispatch env c f s [b], [])
      else (w, [b])

/-- `handle_rx_ind` for a data frame, and `mtlk_df_nbuf_free_sub_frames` by its caller. -/
def handleRxInd (w : World) : World :=
  let b : Nbuf := ⟨w.stadb f.addr2, none, false, false, false, false, false, false⟩
  match w.stadb f.addr2 with
  | none => w.freeSubFrames [b]
  | some s =>
    let w := (w.found s).incref b.src
    let (w, rest) := w.handleData env c f s b
    (w.lost s).freeSubFrames rest

end World

end Wave300.Recv
