import Mathlib.Algebra.Order.Ring.Int
import Wave300.Lib.Memory

/-!
# A-MSDU deaggregation

`mtlk_parse_a_msdu`. The original buffer and its clones share the bytes; addresses count from the
start of the A-MSDU body. What `analyze_rx_packet` and `mtlk_mc_parse` do with a buffer is left
out: they read its bytes only.
-/

namespace Wave300.Rx

open Lib

/-- The buffer that was received, and its clones in the order in which they were made. -/
inductive Buf where
  | original
  | clone (i : Nat)
  deriving DecidableEq, Repr

/-- `data` and `len` of `mtlk_nbuf_t` -/
structure Nbuf where
  data : Nat
  len : Nat
  deriving DecidableEq, Repr

/-- `mtlk_df_nbuf_pull`: longer than the buffer, it changes nothing. -/
def Nbuf.pull (b : Nbuf) (len : Nat) : Nbuf :=
  if len ≤ b.len then ⟨b.data + len, b.len - len⟩ else b

/-- `mtlk_df_nbuf_trim` -/
def Nbuf.trim (b : Nbuf) (len : Nat) : Nbuf := { b with len := min b.len len }

/-- The shared bytes, the buffers with their `sub_frame`, and the variables of the function.
`touched` records the ranges that were read or written. -/
structure Parse where
  mem : Nat → UInt8
  nbuf : Nbuf
  clones : List Nbuf
  subFrame : Buf → Option Buf
  subNbufStored : Option Buf
  subNbufFirst : Buf
  aMsduLen : Int
  touched : List (Nat × Nat)

/-- `sizeof (struct ethhdr)` -/
def ethhdrSize : Nat := 14

/-- `sizeof (mtlk_snap_hdr_t) + sizeof (mtlk_llc_hdr_t)` -/
def llcSnapSize : Nat := 8

/-- `ETH_ALEN * 2` -/
def macsSize : Nat := 12

/-- `AMSDU_MAX_MSDU_SIZE` -/
def amsduMaxMsduSize : Nat := 2304

/-- `ntohs (ether_header->h_proto)` of the header at an address. -/
def hProto (mem : Nat → UInt8) (a : Nat) : Nat := (mem (a + 12)).toNat * 256 + (mem (a + 13)).toNat

/-- The padding that follows a subframe. -/
def padOf (subpacketLen : Nat) : Nat := (4 - subpacketLen % 4) % 4

/-- `_mtlk_update_prev_sub_nbuf` -/
def Parse.updatePrevSubNbuf (s : Parse) (nbuf : Buf) : Parse :=
  let s := match s.subNbufStored with
    | some stored => { s with subFrame := fun b => if b = stored then some nbuf else s.subFrame b }
    | none => { s with subNbufFirst := nbuf }
  { s with subNbufStored := some nbuf }

/-- A subframe is made an Ethernet frame: its buffer is cut behind it, the addresses are moved over
the LLC and SNAP headers. `header` is the address of the subframe. -/
def Parse.present (s : Parse) (header : Nat) : Parse :=
  { s with
    mem := move s.mem (header + llcSnapSize) header macsSize
    touched := s.touched ++ [(header, macsSize), (header + llcSnapSize, macsSize)] }

/-- The buffer of a subframe. -/
def Nbuf.presented (b : Nbuf) (subpacketLen : Nat) : Nbuf := (b.trim subpacketLen).pull llcSnapSize

/-- The last subframe takes the original buffer. -/
def Parse.takeOriginal (s : Parse) (header subpacketLen : Nat) : Parse :=
  let s := (s.present header).updatePrevSubNbuf .original
  { s with nbuf := s.nbuf.presented subpacketLen }

/-- Another subframe takes a clone, made before the original buffer is pulled behind the padding. -/
def Parse.takeClone (s : Parse) (header subpacketLen : Nat) : Parse :=
  let pad := padOf subpacketLen
  let clone := s.nbuf
  let s := { s with
    aMsduLen := s.aMsduLen - (pad : Int)
    nbuf := s.nbuf.pull (subpacketLen + pad) }
  let s := (s.present header).updatePrevSubNbuf (.clone s.clones.length)
  { s with clones := s.clones ++ [clone.presented subpacketLen] }

/-- The label `on_error` -/
def Parse.onError (s : Parse) : Parse :=
  if s.subNbufFirst ≠ .original then
    { s with subFrame := fun b => if b = .original then some s.subNbufFirst else s.subFrame b }
  else s

/-- The loop of `mtlk_parse_a_msdu`, with whether it returns `MTLK_ERR_OK`. `alloc` tells which
clones can be made. The comparison with `sizeof` is unsigned: a negative length passes it. -/
def Parse.loop (alloc : Nat → Bool) : Nat → Parse → Option (Parse × Bool)
  | 0, _ => none
  | fuel + 1, s =>
    if s.aMsduLen = 0 then some (s, true)
    else if 0 ≤ s.aMsduLen ∧ s.aMsduLen < (ethhdrSize : Int) then some (s.onError, false)
    else
      let header := s.nbuf.data
      let msduLen := hProto s.mem header
      let s := { s with touched := s.touched ++ [(header + macsSize, 2)] }
      if amsduMaxMsduSize < msduLen then some (s.onError, false)
      else
        let subpacketLen := msduLen + ethhdrSize
        let rest := s.aMsduLen - (subpacketLen : Int)
        let s := { s with aMsduLen := rest }
        if rest < 0 then some (s.onError, false)
        else if rest = 0 then loop alloc fuel (s.takeOriginal header subpacketLen)
        else if alloc s.clones.length then loop alloc fuel (s.takeClone header subpacketLen)
        else some ({ s with aMsduLen := rest - (padOf subpacketLen : Int) }.onError, false)

/-- The call for a body of `n` bytes. `bytes` are those of the buffer, also behind the body. -/
def Parse.begin (bytes : Nat → UInt8) (n : Nat) : Parse where
  mem := bytes
  nbuf := ⟨0, n⟩
  clones := []
  subFrame := fun _ => none
  subNbufStored := none
  subNbufFirst := .original
  aMsduLen := n
  touched := []

/-- `mtlk_parse_a_msdu` -/
def mtlkParseAMsdu (alloc : Nat → Bool) (bytes : Nat → UInt8) (n : Nat) : Option (Parse × Bool) :=
  (Parse.begin bytes n).loop alloc (n + 2)

end Wave300.Rx
