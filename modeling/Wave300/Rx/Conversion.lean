import Wave300.Replay.Detection
import Wave300.Rx.Deaggregation

/-!
# From 802.11 to Ethernet

What `handle_rx_ind` makes of a data frame that is no A-MSDU. Addresses count from `cp`, where the
802.11 header begins.
-/

namespace Wave300.Rx

open Lib
open Replay (Cipher)

/-- An indication, and what is read of the core: the address of the core, the cipher of the station
that `addr2` names, when there is one, and the cipher of the group. -/
structure RxInd where
  bytes : Nat → UInt8
  msdulen : UInt16
  macAddr : List UInt8
  srcSta : Option Cipher
  groupCipher : Cipher

/-- `ETH_ALEN` -/
def ethAlen : Nat := 6

/-- `WLAN_GET_ADDR1` -/
def addr1 : Nat := 4

/-- `WLAN_GET_ADDR2` -/
def addr2 : Nat := addr1 + 6

/-- `WLAN_GET_ADDR3` -/
def addr3 : Nat := addr2 + 6

/-- `WLAN_GET_ADDR4` -/
def addr4 : Nat := addr3 + 6 + 2

/-- A little endian word, as `mtlk_wlan_pkt_get_frame_ctl` reads it. -/
def read16 (mem : Nat → UInt8) (a : Nat) : Nat := (mem a).toNat + (mem (a + 1)).toNat * 256

/-- `WLAN_FC_GET_TYPE` is `IEEE80211_FTYPE_DATA`. -/
def isData (fc : Nat) : Bool := fc &&& 0x000c == 0x0008

/-- `WLAN_FC_IS_NULL_PKT` -/
def isNullPkt (fc : Nat) : Bool := fc &&& 0x0040 != 0

/-- `WLAN_FC_IS_QOS_PKT` -/
def isQosPkt (fc : Nat) : Bool := fc &&& 0x0080 != 0

/-- `WLAN_FC_GET_FROMDS` -/
def getFromDS (fc : Nat) : Bool := fc &&& 0x0200 != 0

/-- `WLAN_FC_GET_TODS` -/
def getToDS (fc : Nat) : Bool := fc &&& 0x0100 != 0

/-- `WLAN_QOS_GET_MSDU` -/
def qosGetMsdu (qosCtl : Nat) : Bool := qosCtl &&& 0x0080 != 0

/-- `mtlk_wlan_get_hdrlen` -/
def getHdrlen (fc : Nat) : Nat :=
  if isData fc then
    (if getFromDS fc && getToDS fc then 30 else 24) + (if isQosPkt fc then 2 else 0)
  else if fc &&& 0x000c == 0x0004 then
    if fc &&& 0x00f0 == 0x00C0 || fc &&& 0x00f0 == 0x00D0 then 10 else 16
  else 24

/-- `get_cipher`: of the station for a frame that is directed to the core, else of the group. -/
def RxInd.getCipher (r : RxInd) : Cipher :=
  if slice r.bytes addr1 ethAlen = r.macAddr then r.srcSta.getD .none else r.groupCipher

/-- `_get_rsc_buf`, the length of the security header. -/
def RxInd.getRscBuf (r : RxInd) : Nat :=
  if r.getCipher = .tkip ∨ r.getCipher = .ccmp then 8 else 0

/-- `htons`, as it lies in the memory. -/
def htons (n : Int) : List UInt8 :=
  [UInt8.ofNat ((n % 65536).toNat / 256), UInt8.ofNat ((n % 65536).toNat % 256)]

/-- The buffer after `mtlk_df_nbuf_put`, without the four bytes of the FCS. -/
def RxInd.nbuf (r : RxInd) : Nbuf :=
  (⟨0, r.msdulen.toNat⟩ : Nbuf).trim ((r.msdulen.toNat + 2 ^ 32 - 4) % 2 ^ 32)

/-- `_8021H_CONVERT`: the length is written in front of the payload. -/
def convert (mem : Nat → UInt8) (nbuf : Nbuf) (off : Nat) : (Nat → UInt8) × Nat :=
  let off := off - ethhdrSize
  (store mem (nbuf.data + off + macsSize) (htons ((nbuf.len : Int) - off - ethhdrSize)), off)

/-- `_8021H_DECAPSULATE`: nothing is written, the type is the one behind the LLC header. -/
def decapsulate (mem : Nat → UInt8) (off : Nat) : (Nat → UInt8) × Nat :=
  (mem, off - (ethhdrSize - llcSnapSize))

/-- The comparisons of the raw LLC header. `ETH_P_AARP` is `0x80F3`, `ETH_P_IPX` is `0x8137`. -/
def encapsulation (mem : Nat → UInt8) (nbuf : Nbuf) (off : Nat) : (Nat → UInt8) × Nat :=
  let hi4bytes := slice mem (nbuf.data + off) 4
  let lo2bytes := slice mem (nbuf.data + off + 4) 2
  let etherType := slice mem (nbuf.data + off + 6) 2
  if hi4bytes = [0xAA, 0xAA, 0x03, 0x00] then
    if lo2bytes = [0x00, 0x00] then
      if etherType = [0x80, 0xF3] ∨ etherType = [0x81, 0x37] then convert mem nbuf off
      else decapsulate mem off
    else if lo2bytes = [0x00, 0xF8] then decapsulate mem off
    else convert mem nbuf off
  else convert mem nbuf off

/-- `mtlk_wlan_get_mac_addrs`. Both addresses are read before one is written. -/
def getMacAddrs (mem : Nat → UInt8) (packet : Nat) (fromDS toDS : Bool) (srcAddr dstAddr : Nat) :
    Nat → UInt8 :=
  let tmp (dst src : Nat) := (slice mem (packet + dst) ethAlen, slice mem (packet + src) ethAlen)
  let (tmpDstAddr, tmpSrcAddr) :=
    if fromDS && !toDS then tmp addr1 addr3
    else if !fromDS && toDS then tmp addr3 addr2
    else if fromDS && toDS then tmp addr3 addr4
    else tmp addr1 addr2
  store (store mem dstAddr tmpDstAddr) srcAddr tmpSrcAddr

/-- `frame_ctl` -/
def RxInd.frameCtl (r : RxInd) : Nat := read16 r.bytes 0

/-- `a_msdu` -/
def RxInd.aMsdu (r : RxInd) : Bool :=
  isQosPkt r.frameCtl && qosGetMsdu (read16 r.bytes (getHdrlen r.frameCtl - 2))

/-- `handle_rx_ind`, up to the Ethernet header. There is no frame where the indication is for a
management or control frame, for a frame of an unknown station, for one without data, or for an
A-MSDU. -/
def handleRxInd (r : RxInd) : Option ((Nat → UInt8) × Nbuf) :=
  let fc := r.frameCtl
  if !isData fc then none
  else if r.srcSta.isNone then none
  else if isNullPkt fc then none
  else if r.aMsdu then none
  else
    let off := getHdrlen fc + r.getRscBuf
    let (mem, off) := encapsulation r.bytes r.nbuf off
    let nbuf := r.nbuf.pull off
    some (getMacAddrs mem 0 (getFromDS fc) (getToDS fc) (nbuf.data + ethAlen) nbuf.data, nbuf)

end Wave300.Rx
