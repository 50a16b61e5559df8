import Mathlib.Data.Vector.Basic
import Wave300.Lib.BigEndian

/-!
# Replay detection

`parse_and_get_replay_counter`, `_detect_replay` and `mtlk_detect_replay_or_sendup` of
`core.c`. The array of six bytes that the caller hands in as `rsn` is part of the state. A
buffer stands for the chain of its sub-frames, which are sent up or freed together; `sentUp`
and `freed` record that. The countermeasures that `_mtlk_core_on_mic_failure` starts and the
text of the log messages are left out.
-/

namespace Wave300.Replay

open Lib

/-- The values of `IW_ENCODE_ALG_...` -/
inductive Cipher where
  | none
  | wep
  | tkip
  | ccmp
  | aesCmac
  deriving DecidableEq, Repr

/-- What is read of a `sta_entry`. -/
structure Sta where
  addr : Vector UInt8 6
  cipher : Cipher
  deriving DecidableEq, Repr

/-- What is read of a received buffer and its `mtlk_nbuf_priv_t`, with the `group_cipher` the
core has when the buffer is checked. -/
structure Nbuf where
  groupCipher : Cipher
  srcSta : Option Sta
  /-- `MTLK_NBUFF_DIRECTED` -/
  directed : Bool
  rsnBits : UInt8
  rscBuf : Vector UInt8 8
  /-- `h_source` of the ethernet header. -/
  hSource : Vector UInt8 6
  deriving DecidableEq, Repr

/-- `mtlk_df_ui_mic_fail_type_t` -/
inductive MicFailType where
  | pairwise
  | group
  deriving DecidableEq, Repr

/-- What is written of `mtlk_core_t`, with the calls of `mtlk_df_ui_notify_mic_failure`. -/
structure Core where
  multicastReplayed : Nat
  unicastReplayed : Nat
  micFailures : List (Vector UInt8 6 × MicFailType)
  deriving DecidableEq, Repr

/-- The values `_detect_replay` returns: 0, 1 and 2. -/
inductive Res where
  | ok
  | replay
  | micFailure
  deriving DecidableEq, Repr

/-- `UMI_NOTIFICATION_MIC_FAILURE` -/
def umiNotificationMicFailure : UInt8 := 1

/-- `get_cipher` -/
def getCipher (nbuf : Nbuf) (sta : Sta) : Cipher :=
  if nbuf.directed then sta.cipher else nbuf.groupCipher

/-- `parse_and_get_replay_counter` -/
def parseAndGetReplayCounter (nbuf : Nbuf) : Cipher → Option (Vector UInt8 6)
  | .tkip => some #v[nbuf.rscBuf[7], nbuf.rscBuf[6], nbuf.rscBuf[5], nbuf.rscBuf[4],
      nbuf.rscBuf[0], nbuf.rscBuf[2]]
  | .ccmp => some #v[nbuf.rscBuf[7], nbuf.rscBuf[6], nbuf.rscBuf[5], nbuf.rscBuf[4],
      nbuf.rscBuf[1], nbuf.rscBuf[0]]
  | .none | .wep | .aesCmac => none

/-- `nfrags` of `_detect_replay` -/
def nfrags (nbuf : Nbuf) : Nat := ((nbuf.rsnBits &&& 0xf0) >>> 4).toNat

/-- The counter advanced by the fragments: the six bytes are the lower ones of the eight of
`u64buf`, which is converted to a number and back. -/
def addFrags (rc : Vector UInt8 6) (nfrags : Nat) : Vector UInt8 6 :=
  let u64buf := (ofBytes ([0, 0] ++ rc.toList) + nfrags) % 2 ^ 64
  ⟨((toBytes 8 u64buf).drop 2).toArray, by
    rw [List.size_toArray, List.length_drop, length_toBytes]⟩

/-- `mtlk_osal_eth_is_multicast(h_source) || mtlk_osal_eth_is_broadcast(h_source)` -/
def hasGroupSource (nbuf : Nbuf) : Bool :=
  nbuf.hSource.toList.headD 0 &&& 1 != 0 || nbuf.hSource.toList == List.replicate 6 0xff

def Core.countReplay (core : Core) (nbuf : Nbuf) : Core :=
  if hasGroupSource nbuf then { core with multicastReplayed := core.multicastReplayed + 1 }
  else { core with unicastReplayed := core.unicastReplayed + 1 }

def Core.notifyMicFailure (core : Core) (nbuf : Nbuf) (sta : Sta) : Core :=
  let type := if nbuf.directed then MicFailType.pairwise else .group
  { core with micFailures := core.micFailures ++ [(sta.addr, type)] }

/-- `_detect_replay` -/
def detectReplay (core : Core) (nbuf : Nbuf) (sta : Sta) (lastRc : Vector UInt8 6) :
    Res × Core × Vector UInt8 6 :=
  match parseAndGetReplayCounter nbuf (getCipher nbuf sta) with
  | none => (.ok, core, lastRc)
  | some rc =>
    if memcmp rc.toList lastRc.toList ≤ 0 then (.replay, core.countReplay nbuf, lastRc)
    else if nbuf.rsnBits &&& umiNotificationMicFailure ≠ 0 then
      let core := if getCipher nbuf sta = .tkip then core.notifyMicFailure nbuf sta else core
      (.micFailure, core, lastRc)
    else (.ok, core, if nfrags nbuf ≠ 0 then addFrags rc (nfrags nbuf) else rc)

/-- The core with a replay-counter array and what became of the frames checked against it. -/
structure Receiver where
  core : Core
  rsn : Vector UInt8 6
  sentUp : List Nbuf
  freed : List Nbuf
  deriving DecidableEq, Repr

/-- The result of `mtlk_detect_replay_or_sendup`, with what `_detect_replay` leaves. -/
def Receiver.detect (r : Receiver) (nbuf : Nbuf) : Res × Core × Vector UInt8 6 :=
  match nbuf.srcSta with
  | some sta => detectReplay r.core nbuf sta r.rsn
  | none => (.ok, r.core, r.rsn)

/-- `mtlk_detect_replay_or_sendup` -/
def Receiver.detectReplayOrSendup (r : Receiver) (nbuf : Nbuf) : Receiver :=
  let (res, core, rsn) := r.detect nbuf
  if res = .ok then { r with core := core, rsn := rsn, sentUp := r.sentUp ++ [nbuf] }
  else { r with core := core, rsn := rsn, freed := r.freed ++ [nbuf] }

end Wave300.Replay
