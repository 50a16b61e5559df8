import Wave300.Rx.Ethernet
import Wave300.Rx.Exact

/-!
# The bytes of a received frame

What `handle_rx_ind` reads and writes of a buffer, and which lengths it computes from that of the
frame. Nothing compares that length with the headers, whose length the sender chooses. Addresses
count from `cp`.
-/

namespace Wave300.Rx

open Lib

/-- `MAN_TYPE_PROBE_REQ` -/
def manTypeProbeReq : Nat := 4

/-- `MAN_TYPE_PROBE_RES` -/
def manTypeProbeRes : Nat := 5

/-- `MAN_TYPE_BEACON` -/
def manTypeBeacon : Nat := 8

/-- `frame_subtype`, with `FRAME_SUBTYPE_MASK` and `FRAME_SUBTYPE_SHIFT`. -/
def frameSubtype (fc : Nat) : Nat := (fc &&& 0x00F0) >>> 4

/-- `WLAN_FC_GET_TYPE` is `IEEE80211_FTYPE_MGMT`. -/
def isMgmt (fc : Nat) : Bool := fc &&& 0x000c == 0x0000

/-- `WLAN_GET_SEQ_CTL` -/
def seqCtl : Nat := addr3 + 6

/-- An indication, with whether the core is an access point, whether `mtlk_process_man_frame`
returns `MTLK_ERR_OK`, and which clones can be made. -/
structure Received extends RxInd where
  isAp : Bool
  manFrame : Bool
  alloc : Nat → Bool

/-- What goes on from `handle_rx_ind`: a frame, or the buffers of an A-MSDU with their links. -/
inductive Delivered where
  | nothing
  | frame (bytes : List UInt8)
  | frames (first : Buf) (subFrame : Buf → Option Buf) (view : Buf → List UInt8)

/-- The ranges that are read or written, from what a length is taken and how much, and what is
delivered. -/
structure Handled where
  touched : List (Nat × Nat)
  lengths : List (Nat × Nat)
  delivered : Delivered

/-- The frame goes no further. -/
def Handled.drop (touched : List (Nat × Nat)) (r : Received) : Handled :=
  ⟨touched, [(r.msdulen.toNat, 4)], .nothing⟩

/-- What is read of the raw LLC header. -/
def llcTouched (mem : Nat → UInt8) (off : Nat) : List (Nat × Nat) :=
  (off, 4) ::
    if slice mem off 4 = [0xAA, 0xAA, 0x03, 0x00] then
      (off + 4, 2) :: if slice mem (off + 4) 2 = [0x00, 0x00] then [(off + 6, 2)] else []
    else []

/-- The length is written, and computed, in `_8021H_CONVERT` only. -/
def convertTouched (off : Nat) : List (Nat × Nat) := [(off - ethhdrSize + macsSize, 2)]

def convertLengths (nbuf : Nbuf) (off : Nat) : List (Nat × Nat) :=
  [(nbuf.len, off - ethhdrSize), (nbuf.len - (off - ethhdrSize), ethhdrSize)]

namespace Received

/-- What is read of a data frame before its payload. -/
def headerTouched (r : Received) : List (Nat × Nat) :=
  let off := getHdrlen r.frameCtl
  (if isQosPkt r.frameCtl then [(off - 2, 2)] else []) ++ [(addr1, ethAlen)] ++
    (if r.getRscBuf = 0 then [] else [(off, r.getRscBuf)])

/-- The branch of a regular MSDU. -/
def regular (r : Received) (touched : List (Nat × Nat)) : Handled :=
  let off := getHdrlen r.frameCtl + r.getRscBuf
  let converts := !decide (Encapsulated (slice r.bytes off 8))
  let ds := (getToDS r.frameCtl, getFromDS r.frameCtl)
  match handleRxInd r.toRxInd with
  | none => .drop touched r
  | some (mem, nbuf) =>
    { touched := touched ++ llcTouched r.bytes off ++
        (if converts then convertTouched off else []) ++
        [(destination ds, ethAlen), (source ds, ethAlen), (nbuf.data, ethAlen),
          (nbuf.data + ethAlen, ethAlen)]
      lengths := (r.msdulen.toNat, 4) :: if converts then convertLengths r.nbuf off else []
      delivered := .frame (slice mem nbuf.data nbuf.len) }

/-- The buffer with the body of an A-MSDU. -/
def body (r : Received) : Nbuf := r.nbuf.pull (getHdrlen r.frameCtl + r.getRscBuf)

/-- The branch of an A-MSDU. -/
def aMsduBody (r : Received) (touched : List (Nat × Nat)) : Handled :=
  match mtlkParseAMsdu r.alloc (fun j => r.bytes (r.body.data + j)) r.body.len with
  | none => .drop touched r
  | some (t, ok) =>
    { touched := touched ++ t.touched.map fun x => (r.body.data + x.1, x.2)
      lengths := [(r.msdulen.toNat, 4)]
      delivered := if ok then .frames t.subNbufFirst t.subFrame t.view else .nothing }

/-- The channel is written over the duration of some management frames. -/
def channelTouched (r : Received) : List (Nat × Nat) :=
  let subtype := frameSubtype r.frameCtl
  if isMgmt r.frameCtl && r.manFrame &&
      (subtype = manTypeBeacon && !r.isAp || subtype = manTypeProbeRes ||
        subtype = manTypeProbeReq) then
    [(2, 2)]
  else []

/-- `handle_rx_ind` -/
def handle (r : Received) : Handled :=
  let touched := [(0, 2), (addr2, ethAlen)]
  if !isData r.frameCtl then .drop (touched ++ r.channelTouched) r
  else if r.srcSta.isNone then .drop touched r
  else
    let touched := touched ++ [(seqCtl, 2)]
    if isNullPkt r.frameCtl then .drop touched r
    else
      let touched := touched ++ r.headerTouched
      if r.aMsdu then r.aMsduBody touched else r.regular touched

/-- The same indication over another memory. -/
def withBytes (r : Received) (bytes : Nat → UInt8) : Received := { r with bytes }

/-- What is promised: all that is read or written is in the frame, no length is less than what is
taken from it, and what is delivered does not depend on other bytes. -/
structure Inside (r : Received) : Prop where
  touched : ∀ t ∈ r.handle.touched, t.1 + t.2 ≤ r.msdulen.toNat
  lengths : ∀ l ∈ r.handle.lengths, l.2 ≤ l.1
  own : ∀ bytes, Agree r.msdulen.toNat r.bytes bytes →
    (r.withBytes bytes).handle.delivered = r.handle.delivered

/-- The end of the LLC header, as far as it is looked at. -/
def llcEnd (r : Received) : Nat :=
  if slice r.bytes r.headerLen 4 = [0xAA, 0xAA, 0x03, 0x00] then
    if slice r.bytes (r.headerLen + 4) 2 = [0x00, 0x00] then r.headerLen + 8 else r.headerLen + 6
  else r.headerLen + 4

/-- The subframes that are taken from the body of an A-MSDU. -/
def subframes (r : Received) : List Subframe :=
  (walk r.alloc (fun j => r.bytes (r.body.data + j)) r.body.len (r.body.len + 2) 0 0).1

/-- The frame has its second address. A data frame of a known station has its sequence control, too,
one with data all its headers, and an A-MSDU so much of each subframe that is taken that the
addresses can be moved. -/
def Fits (r : Received) : Prop :=
  addr2 + ethAlen ≤ r.msdulen.toNat ∧
    (isData r.frameCtl = true → r.srcSta.isNone = false →
      seqCtl + 2 ≤ r.msdulen.toNat ∧
        (isNullPkt r.frameCtl = false →
          r.headerLen ≤ r.msdulen.toNat ∧
            if r.aMsdu then ∀ f ∈ r.subframes, r.body.data + (f.start + 20) ≤ r.msdulen.toNat
            else r.llcEnd ≤ r.msdulen.toNat))

instance (r : Received) : Decidable r.Fits := inferInstanceAs (Decidable (_ ∧ _))

end Received

variable {r : Received} {bytes : Nat → UInt8} {n o N fuel : Nat} {alloc : Nat → Bool} {s s' : Parse}

/-! ## The body of an A-MSDU -/

theorem Nbuf.pull_stop (b : Nbuf) (k : Nat) :
    (b.pull k).data + (b.pull k).len = b.data + b.len := by
  rw [Nbuf.pull]
  split
  · simp only
    omega
  · rfl

theorem Nbuf.presented_stop_le (b : Nbuf) (k : Nat) :
    (b.presented k).data + (b.presented k).len ≤ b.data + b.len := by
  rw [Nbuf.presented, Nbuf.pull_stop, Nbuf.trim]
  exact Nat.add_le_add_left (Nat.min_le_left ..) _

/-- Two runs of `mtlk_parse_a_msdu` over memories that hold the same in the body. -/
structure Like (n : Nat) (s s' : Parse) : Prop where
  same : s' = { s with mem := s'.mem }
  mem : Agree n s.mem s'.mem
  nbuf : s.nbuf.data + s.nbuf.len ≤ n
  clones : ∀ c ∈ s.clones, c.data + c.len ≤ n

theorem Like.present (h : Like n s s') {header : Nat} (inside : header + macsSize ≤ n) :
    Like n (s.present header) (s'.present header) := by
  refine ⟨?_, h.mem.move _ inside, h.nbuf, h.clones⟩
  rw [h.same]
  rfl

theorem Like.takeOriginal (h : Like n s s') {header : Nat} (inside : header + macsSize ≤ n)
    (len : Nat) : Like n (s.takeOriginal header len) (s'.takeOriginal header len) := by
  have present := h.present inside
  rw [takeOriginal_eq, takeOriginal_eq]
  refine ⟨?_, present.mem, ?_, h.clones⟩
  · rw [h.same]
    rfl
  · exact (Nbuf.presented_stop_le s.nbuf len).trans h.nbuf

theorem Like.takeClone (h : Like n s s') {header : Nat} (inside : header + macsSize ≤ n)
    (len : Nat) : Like n (s.takeClone header len) (s'.takeClone header len) := by
  have present := h.present inside
  rw [takeClone_eq, takeClone_eq]
  refine ⟨?_, present.mem, ?_, ?_⟩
  · rw [h.same]
    rfl
  · exact (Nbuf.pull_stop s.nbuf _).trans_le h.nbuf
  · intro c mem
    obtain old | new := List.mem_append.1 mem
    · exact h.clones c old
    · rw [List.mem_singleton.1 new]
      exact (Nbuf.presented_stop_le s.nbuf len).trans h.nbuf

theorem Like.onError (h : Like n s s') : Like n s.onError s'.onError := by
  obtain ⟨-, mem, clones, -⟩ := onError_frame s
  refine ⟨?_, ?_, ?_, ?_⟩
  · rw [h.same]
    simp only [Parse.onError]
    split <;> rfl
  · rw [mem, (onError_frame s').2.1]
    exact h.mem
  · simp only [Parse.onError]
    split <;> exact h.nbuf
  · rw [clones]
    exact h.clones

/-- What the buffers show is in the body. -/
theorem Like.view (h : Like n s s') (b : Buf) : s.view b = s'.view b := by
  have nbufOf : s'.nbufOf b = s.nbufOf b := by
    rw [h.same]
    cases b <;> rfl
  have inside : (s.nbufOf b).data + (s.nbufOf b).len ≤ n := by
    cases b with
    | original => exact h.nbuf
    | clone i =>
      simp only [Parse.nbufOf, List.getD_eq_getElem?_getD]
      cases found : s.clones[i]? with
      | none => exact h.nbuf
      | some c => exact h.clones c (List.mem_of_getElem? found)
  rw [Parse.view, Parse.view, nbufOf]
  exact h.mem.slice_eq inside


theorem hProto_agree {m m' : Nat → UInt8} {a : Nat} (h : Agree n m m')
    (inside : a + ethhdrSize ≤ n) : hProto m a = hProto m' a := by
  simp only [ethhdrSize] at inside
  rw [hProto, hProto, h (a + 12) (by omega), h (a + 13) (by omega)]

/-- A header that the loop looks at is in the body. -/
theorem At.header (h : At bytes n o s)
    (long : ¬ (0 ≤ s.aMsduLen ∧ s.aMsduLen < (ethhdrSize : Int))) :
    s.nbuf.data + ethhdrSize ≤ n ∧ (s.aMsduLen < 0 ∨ o + ethhdrSize ≤ n ∧ s.nbuf.data = o) := by
  have len := h.len
  by_cases past : n < o
  · exact ⟨h.past past, .inl (by omega)⟩
  · have here := h.nbuf (by omega)
    have room : o + ethhdrSize ≤ n := by
      simp only [ethhdrSize] at long ⊢
      omega
    rw [here]
    exact ⟨room, .inr ⟨room, rfl⟩⟩

/-- What the loop makes of two states that are alike. -/
theorem loop_like (h : At bytes n o s) (like : Like n s s') (positive : 0 < fuel)
    (enough : n + 1 < o + fuel) : ∃ t t' ok, s.loop alloc fuel = some (t, ok) ∧
      s'.loop alloc fuel = some (t', ok) ∧ Like n t t' := by
  induction fuel generalizing s s' o with
  | zero => omega
  | succ fuel ih =>
    obtain ⟨m', is⟩ : ∃ m', s' = { s with mem := m' } := ⟨_, like.same⟩
    subst is
    have len := h.len
    simp only [Parse.loop]
    by_cases done : s.aMsduLen = 0
    · simp only [if_pos done]
      exact ⟨_, _, _, rfl, rfl, like⟩
    by_cases short : 0 ≤ s.aMsduLen ∧ s.aMsduLen < (ethhdrSize : Int)
    · simp only [if_neg done, if_pos short]
      exact ⟨_, _, _, rfl, rfl, like.onError⟩
    obtain ⟨header, past | ⟨room, data⟩⟩ := h.header short
    all_goals
      have proto : hProto m' s.nbuf.data = hProto s.mem s.nbuf.data :=
        (hProto_agree like.mem header).symm
      simp only [if_neg done, if_neg short, proto]
      by_cases long : amsduMaxMsduSize < hProto s.mem s.nbuf.data
      · simp only [if_pos long]
        exact ⟨_, _, _, rfl, rfl,
          Like.onError ⟨rfl, like.mem, like.nbuf, like.clones⟩⟩
      simp only [if_neg long]
    · rw [if_pos (by omega), if_pos (by omega)]
      exact ⟨_, _, _, rfl, rfl, Like.onError ⟨rfl, like.mem, like.nbuf, like.clones⟩⟩
    · obtain ⟨f, is, start⟩ : ∃ f : Subframe, f = ⟨o, hProto bytes o⟩ ∧ f.start = o := ⟨_, rfl, rfl⟩
      have proto : hProto s.mem o = f.len := by rw [is, hProto_congr h.mem]
      have stop : f.stop = o + (f.len + ethhdrSize) := by rw [Subframe.stop, start]
      have inside : o + macsSize ≤ n := Nat.le_trans (Nat.le_add_right _ 2) room
      simp only [data, proto]
      by_cases beyond : s.aMsduLen - ((f.len + ethhdrSize : Nat) : Int) < 0
      · simp only [if_pos beyond]
        exact ⟨_, _, _, rfl, rfl, Like.onError ⟨rfl, like.mem, like.nbuf, like.clones⟩⟩
      simp only [if_neg beyond]
      have read : Like n
          { s with
            touched := s.touched ++ [(o + macsSize, 2)]
            aMsduLen := s.aMsduLen - ((f.len + ethhdrSize : Nat) : Int) }
          { s with
            mem := m'
            touched := s.touched ++ [(o + macsSize, 2)]
            aMsduLen := s.aMsduLen - ((f.len + ethhdrSize : Nat) : Int) } :=
        ⟨rfl, like.mem, like.nbuf, like.clones⟩
      by_cases last : s.aMsduLen - ((f.len + ethhdrSize : Nat) : Int) = 0
      · simp only [if_pos last]
        cases fuel with
        | zero =>
          simp only [ethhdrSize] at room
          omega
        | succ fuel =>
          refine ⟨_, _, true, ?_, ?_, read.takeOriginal inside (f.len + ethhdrSize)⟩
          · rw [Parse.loop, if_pos]
            rw [takeOriginal_eq]
            exact last
          · rw [Parse.loop, if_pos]
            rw [takeOriginal_eq]
            exact last
      simp only [if_neg last]
      cases made : alloc s.clones.length with
      | false =>
        exact ⟨_, _, _, rfl, rfl, Like.onError ⟨rfl, like.mem, like.nbuf, like.clones⟩⟩
      | true =>
        have far := padded_ge f
        refine ih (at_takeClone h start (by omega) (s.touched ++ [(o + macsSize, 2)]))
          (read.takeClone inside (f.len + ethhdrSize)) ?_ (by omega)
        simp only [ethhdrSize] at room
        omega

theorem parse_like (alloc : Nat → Bool) {m m' : Nat → UInt8} (same : Agree n m m') : ∃ t t' ok,
    mtlkParseAMsdu alloc m n = some (t, ok) ∧ mtlkParseAMsdu alloc m' n = some (t', ok) ∧
      Like n t t' :=
  loop_like (at_begin m n) ⟨rfl, same, Nat.le_of_eq (Nat.zero_add n), by simp [Parse.begin]⟩
    (Nat.succ_pos (n + 1)) (by omega)

theorem forall_taken {touched : List (Nat × Nat)} :
    (∀ x ∈ touched ++ [(o + macsSize, 2)] ++ [(o, macsSize), (o + llcSnapSize, macsSize)],
      x.1 + x.2 ≤ N) ↔ (∀ x ∈ touched, x.1 + x.2 ≤ N) ∧ o + 20 ≤ N := by
  simp only [List.append_assoc, List.forall_mem_append, List.forall_mem_cons, List.not_mem_nil,
    false_implies, implies_true, and_true, macsSize, llcSnapSize]
  refine and_congr_right fun _ => ?_
  omega

/-- What the loop reads and writes ends where the addresses of a subframe are moved to, if not
before the end of the body. -/
theorem loop_touched (h : At bytes n o s) (le : n ≤ N) (enough : n + 1 < o + fuel) {t : Parse}
    {ok : Bool} (result : s.loop alloc fuel = some (t, ok)) :
    (∀ x ∈ t.touched, x.1 + x.2 ≤ N) ↔ (∀ x ∈ s.touched, x.1 + x.2 ≤ N) ∧
      ∀ f ∈ (walk alloc bytes n fuel s.clones.length o).1, f.start + 20 ≤ N := by
  induction fuel generalizing s o with
  | zero => cases result
  | succ fuel ih =>
    obtain ⟨-, loop, walked⟩ | ⟨len, touched, loop, walked, ranges⟩ |
      ⟨f, start, last, loop, walked⟩ | ⟨f, start, before, loop, walked⟩ := loop_cases h fuel
    · obtain ⟨rfl, -⟩ := Prod.mk.inj (Option.some.inj (result.symm.trans loop))
      simp [walked]
    · obtain ⟨rfl, -⟩ := Prod.mk.inj (Option.some.inj (result.symm.trans loop))
      rw [(onError_frame _).1, walked]
      obtain rfl | ⟨a, rfl, inside⟩ := ranges
      · simp
      · simp only [List.forall_mem_append, List.forall_mem_singleton, inside.trans le, and_true,
          List.not_mem_nil, false_implies, implies_true]
    · cases fuel with
      | zero => cases loop.symm.trans result
      | succ fuel =>
        rw [loop, Parse.loop, if_pos] at result
        · obtain ⟨rfl, -⟩ := Prod.mk.inj (Option.some.inj result)
          rw [takeOriginal_eq, walked, List.forall_mem_singleton, start]
          exact forall_taken
        · rw [takeOriginal_eq]
          have len := h.len
          simp only [Subframe.stop, start] at last
          simp only [Parse.present]
          omega
    · have far := padded_ge f
      have rest := ih (at_takeClone h start before.le (s.touched ++ [(o + macsSize, 2)])) (by omega)
        (loop.symm.trans result)
      have count : ({ s with
          touched := s.touched ++ [(o + macsSize, 2)]
          aMsduLen := s.aMsduLen - (f.len + ethhdrSize : Nat) }.takeClone o
            (f.len + ethhdrSize)).clones.length = s.clones.length + 1 := by
        simp [takeClone_eq, Parse.present]
      rw [rest, count, walked, List.forall_mem_cons, start, ← and_assoc, takeClone_eq]
      exact and_congr_left fun _ => forall_taken

/-! ## The headers -/

theorem nbuf_stop_le (r : RxInd) : r.nbuf.data + r.nbuf.len ≤ r.msdulen.toNat := by
  simp only [RxInd.nbuf, Nbuf.trim, Nat.zero_add]
  exact Nat.min_le_left ..

theorem getHdrlen_ge (fc : Nat) (data : isData fc = true) : 24 ≤ getHdrlen fc := by
  simp only [getHdrlen, data, if_true]
  split <;> split <;> omega

namespace Received

theorem handle_other (other : isData r.frameCtl = false) :
    r.handle = .drop ([(0, 2), (addr2, ethAlen)] ++ r.channelTouched) r := by
  simp only [handle, other, Bool.not_false, if_true]

theorem handle_unknown (data : isData r.frameCtl = true) (unknown : r.srcSta.isNone = true) :
    r.handle = .drop [(0, 2), (addr2, ethAlen)] r := by
  simp only [handle, data, unknown, Bool.not_true, Bool.false_eq_true, if_false, if_true]

theorem handle_null (data : isData r.frameCtl = true) (known : r.srcSta.isNone = false)
    (null : isNullPkt r.frameCtl = true) :
    r.handle = .drop ([(0, 2), (addr2, ethAlen)] ++ [(seqCtl, 2)]) r := by
  simp only [handle, data, known, null, Bool.not_true, Bool.false_eq_true, if_false, if_true]

/-- What is touched of a data frame before its payload. -/
def begun (r : Received) : List (Nat × Nat) :=
  [(0, 2), (addr2, ethAlen)] ++ [(seqCtl, 2)] ++ r.headerTouched

theorem handle_payload (data : isData r.frameCtl = true) (known : r.srcSta.isNone = false)
    (carries : isNullPkt r.frameCtl = false) :
    r.handle = if r.aMsdu then r.aMsduBody r.begun else r.regular r.begun := by
  simp only [handle, data, known, carries, begun, Bool.not_true, Bool.false_eq_true, if_false]

theorem begun_iff : (∀ x ∈ r.begun, x.1 + x.2 ≤ n) ↔ 24 ≤ n ∧
    (isQosPkt r.frameCtl = true → getHdrlen r.frameCtl - 2 + 2 ≤ n) ∧
      (r.getRscBuf ≠ 0 → getHdrlen r.frameCtl + r.getRscBuf ≤ n) := by
  simp only [begun, headerTouched, List.forall_mem_append, List.forall_mem_cons, List.not_mem_nil,
    false_implies, implies_true, and_true, seqCtl, addr3, addr2, addr1, ethAlen]
  cases isQosPkt r.frameCtl <;> by_cases none : r.getRscBuf = 0 <;> simp [none] <;> omega

theorem aMsdu_qos (several : r.aMsdu = true) : isQosPkt r.frameCtl = true := by
  simp only [RxInd.aMsdu, Bool.and_eq_true] at several
  exact several.1

/-- The headers of an A-MSDU are looked at as far as they reach, since there is a QoS field. -/
theorem begun_aMsdu (data : isData r.frameCtl = true) (several : r.aMsdu = true) :
    (∀ x ∈ r.begun, x.1 + x.2 ≤ n) ↔ 24 ≤ n ∧ r.headerLen ≤ n := by
  have head := getHdrlen_data data
  have long := getHdrlen_ge _ data
  rw [begun_iff, ← head, aMsdu_qos several]
  obtain none | eight := getRscBuf_cases r.toRxInd
  · simp only [none, ne_eq, not_true_eq_false, false_implies, true_implies, and_true]
    omega
  · simp only [eight, ne_eq, OfNat.ofNat_ne_zero, not_false_eq_true, true_implies]
    omega

theorem llcTouched_iff : (∀ x ∈ llcTouched r.bytes r.headerLen, x.1 + x.2 ≤ n) ↔ r.llcEnd ≤ n := by
  unfold llcTouched llcEnd
  split
  · split
    · simp only [List.forall_mem_cons, List.not_mem_nil, false_implies, implies_true, and_true]
      omega
    · simp only [List.forall_mem_cons, List.not_mem_nil, false_implies, implies_true, and_true]
      omega
  · simp only [List.forall_mem_cons, List.not_mem_nil, false_implies, implies_true, and_true]

theorem llcEnd_ge (r : Received) : r.headerLen + 4 ≤ r.llcEnd := by
  unfold llcEnd
  split
  · split <;> omega
  · exact Nat.le_refl _

theorem llcEnd_encapsulated (shed : Encapsulated (slice r.bytes r.headerLen 8)) :
    r.headerLen + 6 ≤ r.llcEnd := by
  have six : (slice r.bytes r.headerLen 8).take 6 = slice r.bytes r.headerLen 6 :=
    slice_take (by omega)
  have four : (slice r.bytes r.headerLen 6).take 4 = slice r.bytes r.headerLen 4 :=
    slice_take (by omega)
  have hi : slice r.bytes r.headerLen 4 = [0xAA, 0xAA, 0x03, 0x00] := by
    obtain ⟨first, -⟩ | first := shed
    · rw [← four, ← six, first]
      rfl
    · rw [← four, ← six, first]
      rfl
  rw [llcEnd, if_pos hi]
  split <;> omega

/-! ## What is touched -/

theorem channelTouched_le : ∀ x ∈ r.channelTouched, x.1 + x.2 ≤ 4 := by
  simp only [channelTouched]
  split
  · simp
  · simp

theorem body_stop_le (r : Received) : r.body.data + r.body.len ≤ r.msdulen.toNat := by
  rw [body, Nbuf.pull_stop]
  exact nbuf_stop_le r.toRxInd

/-- Where the Ethernet header is put in front of a regular MSDU. -/
theorem pull_data_le (r : RxInd) (off : Nat) : (r.nbuf.pull off).data ≤ off := by
  simp only [Nbuf.pull]
  split
  · exact Nat.le_of_eq (Nat.zero_add off)
  · exact Nat.zero_le off

theorem encapsulation_snd (r : RxInd) : (encapsulation r.bytes r.nbuf r.headerLen).2 =
    if Encapsulated (slice r.bytes r.headerLen 8) then r.headerLen - 6 else r.headerLen - 14 := by
  rw [encapsulation_eq r.bytes r.headerLen (Nat.le_refl 8) r.nbuf rfl]
  split <;> rfl

theorem regular_eq (regular : r.toRxInd.Regular) (touched : List (Nat × Nat)) {nbuf : Nbuf}
    (pulled : r.nbuf.pull (encapsulation r.bytes r.nbuf r.headerLen).2 = nbuf) :
    r.regular touched =
      { touched := touched ++ llcTouched r.bytes r.headerLen ++
          (if Encapsulated (slice r.bytes r.headerLen 8) then [] else convertTouched r.headerLen) ++
          [(destination r.ds, ethAlen), (source r.ds, ethAlen), (nbuf.data, ethAlen),
            (nbuf.data + ethAlen, ethAlen)]
        lengths := (r.msdulen.toNat, 4) ::
          if Encapsulated (slice r.bytes r.headerLen 8) then []
          else convertLengths r.nbuf r.headerLen
        delivered := .frame (slice
          (r.headed (encapsulation r.bytes r.nbuf r.headerLen).1 nbuf.data) nbuf.data
            nbuf.len) } := by
  have made := handleRxInd_regular regular Prod.mk.eta.symm pulled
  simp only [Received.regular, made, getHdrlen_data regular.data, RxInd.ds]
  by_cases shed : Encapsulated (slice r.bytes r.headerLen 8)
  · simp [shed]
  · simp [shed]

theorem regular_touched (regular : r.toRxInd.Regular) :
    (∀ x ∈ (r.regular r.begun).touched, x.1 + x.2 ≤ n) ↔ r.llcEnd ≤ n := by
  have head := getHdrlen_data regular.data
  have long := headerLen_ge r.toRxInd
  have low := getHdrlen_ge _ regular.data
  obtain ⟨nbuf, pulled⟩ : ∃ nbuf,
    r.nbuf.pull (encapsulation r.bytes r.nbuf r.headerLen).2 = nbuf := ⟨_, rfl⟩
  have data := pull_data_le r.toRxInd (encapsulation r.bytes r.nbuf r.headerLen).2
  rw [pulled, encapsulation_snd] at data
  rw [regular_eq regular r.begun pulled]
  simp only [List.forall_mem_append, llcTouched_iff, begun_iff]
  constructor
  · exact fun all => all.1.1.2
  · intro fits
    have whole := llcEnd_ge r
    refine ⟨⟨⟨?_, fits⟩, ?_⟩, ?_⟩
    · refine ⟨by omega, ?_, ?_⟩ <;> omega
    · split
      · simp
      · simp only [convertTouched, ethhdrSize, macsSize, List.forall_mem_singleton]
        omega
    · have dst := destination_le r.ds
      have src : source r.ds + ethAlen ≤ r.headerLen := by
        obtain beside | ⟨four, -, -, head⟩ := source_beside r.toRxInd
        · omega
        · rw [four, head]
          decide
      have written : nbuf.data + (ethAlen + ethAlen) ≤ r.llcEnd := by
        by_cases shed : Encapsulated (slice r.bytes r.headerLen 8)
        · rw [if_pos shed] at data
          have six := llcEnd_encapsulated shed
          simp only [ethAlen]
          omega
        · rw [if_neg shed] at data
          simp only [ethAlen]
          omega
      simp only [addr3, addr2, addr1, ethAlen, List.forall_mem_cons, List.not_mem_nil,
        false_implies, implies_true, and_true] at *
      omega

theorem aMsduBody_eq (r : Received) (touched : List (Nat × Nat)) : ∃ t ok,
    mtlkParseAMsdu r.alloc (fun j => r.bytes (r.body.data + j)) r.body.len = some (t, ok) ∧
      r.aMsduBody touched =
        { touched := touched ++ t.touched.map fun x => (r.body.data + x.1, x.2)
          lengths := [(r.msdulen.toNat, 4)]
          delivered := if ok then .frames t.subNbufFirst t.subFrame t.view else .nothing } := by
  obtain ⟨t, ok, result, -⟩ := parse_outcome r.alloc (fun j => r.bytes (r.body.data + j)) r.body.len
  refine ⟨t, ok, result, ?_⟩
  simp only [aMsduBody, result]

theorem aMsdu_touched (data : isData r.frameCtl = true) (several : r.aMsdu = true) :
    (∀ x ∈ (r.aMsduBody r.begun).touched, x.1 + x.2 ≤ r.msdulen.toNat) ↔
      (24 ≤ r.msdulen.toNat ∧ r.headerLen ≤ r.msdulen.toNat) ∧
        ∀ f ∈ r.subframes, r.body.data + (f.start + 20) ≤ r.msdulen.toNat := by
  obtain ⟨t, ok, result, is⟩ := aMsduBody_eq r r.begun
  have stop := body_stop_le r
  obtain ⟨N, msdulen⟩ := Nat.exists_eq_add_of_le (Nat.le_of_add_right_le stop)
  have moved := loop_touched (at_begin _ _) (show r.body.len ≤ N by omega) (by omega) result
  simp only [Parse.begin, List.not_mem_nil, false_implies, implies_true, true_and,
    List.length_nil] at moved
  rw [is]
  simp only [List.forall_mem_append, begun_aMsdu data several, List.forall_mem_map]
  refine and_congr_right fun _ => ?_
  rw [msdulen]
  simp only [Nat.add_assoc, Nat.add_le_add_iff_left]
  exact moved

theorem touched_iff : (∀ x ∈ r.handle.touched, x.1 + x.2 ≤ r.msdulen.toNat) ↔ r.Fits := by
  have addresses (rest : List (Nat × Nat)) :
      (∀ x ∈ [(0, 2), (addr2, ethAlen)] ++ rest, x.1 + x.2 ≤ r.msdulen.toNat) ↔
        addr2 + ethAlen ≤ r.msdulen.toNat ∧ ∀ x ∈ rest, x.1 + x.2 ≤ r.msdulen.toNat := by
    simp only [List.forall_mem_append, List.forall_mem_cons, List.not_mem_nil, false_implies,
      implies_true, and_true, addr2, addr1, ethAlen]
    refine and_congr_left fun _ => ?_
    omega
  cases data : isData r.frameCtl with
  | false =>
    rw [handle_other data, Handled.drop, addresses]
    simp only [Fits, data, Bool.false_eq_true, false_implies, and_true]
    refine and_iff_left_of_imp ?_
    intro first x mem
    have small := channelTouched_le x mem
    simp only [addr2, addr1, ethAlen] at first
    omega
  | true =>
    cases known : r.srcSta.isNone with
    | true =>
      rw [handle_unknown data known, Handled.drop]
      simpa [Fits, known] using addresses []
    | false =>
      cases carries : isNullPkt r.frameCtl with
      | true =>
        rw [handle_null data known carries, Handled.drop, addresses]
        simp [Fits, data, known, carries]
      | false =>
        rw [handle_payload data known carries]
        simp only [Fits, data, known, carries, true_implies]
        cases several : r.aMsdu with
        | true =>
          rw [if_pos rfl, if_pos rfl, aMsdu_touched data several]
          simp only [seqCtl, addr3, addr2, addr1, ethAlen]
          constructor
          · rintro ⟨⟨sequence, header⟩, moved⟩
            exact ⟨by omega, by omega, header, moved⟩
          · rintro ⟨-, sequence, header, moved⟩
            exact ⟨⟨by omega, header⟩, moved⟩
        | false =>
          have regular : r.toRxInd.Regular := ⟨data, known, carries, several⟩
          rw [if_neg Bool.false_ne_true, if_neg Bool.false_ne_true, regular_touched regular]
          have whole := llcEnd_ge r
          have long := headerLen_ge r.toRxInd
          simp only [seqCtl, addr3, addr2, addr1, ethAlen]
          omega

/-! ## What follows -/

theorem drop_lengths {touched : List (Nat × Nat)} (fits : 16 ≤ r.msdulen.toNat) :
    ∀ l ∈ (Handled.drop touched r).lengths, l.2 ≤ l.1 := by
  simp only [Handled.drop, List.forall_mem_singleton]
  omega

theorem regular_lengths (regular : r.toRxInd.Regular) (fits : r.llcEnd ≤ r.msdulen.toNat) :
    ∀ l ∈ (r.regular r.begun).lengths, l.2 ≤ l.1 := by
  have whole := llcEnd_ge r
  have long := headerLen_ge r.toRxInd
  rw [regular_eq regular r.begun rfl, List.forall_mem_cons]
  refine ⟨by omega, ?_⟩
  split
  · simp
  · simp only [convertLengths, nbuf_eq (show 4 ≤ r.msdulen.toNat by omega), ethhdrSize,
      List.forall_mem_cons, List.not_mem_nil, false_implies, implies_true, and_true]
    omega

theorem Fits.lengths (h : r.Fits) : ∀ l ∈ r.handle.lengths, l.2 ≤ l.1 := by
  obtain ⟨addresses, sequence⟩ := h
  simp only [addr2, addr1, ethAlen] at addresses
  cases data : isData r.frameCtl with
  | false =>
    rw [handle_other data]
    exact drop_lengths addresses
  | true =>
    cases known : r.srcSta.isNone with
    | true =>
      rw [handle_unknown data known]
      exact drop_lengths addresses
    | false =>
      obtain ⟨-, payload⟩ := sequence data known
      cases carries : isNullPkt r.frameCtl with
      | true =>
        rw [handle_null data known carries]
        exact drop_lengths addresses
      | false =>
        rw [handle_payload data known carries]
        obtain ⟨-, room⟩ := payload carries
        cases several : r.aMsdu with
        | true =>
          obtain ⟨t, ok, -, is⟩ := aMsduBody_eq r r.begun
          rw [if_pos rfl, is, List.forall_mem_singleton]
          omega
        | false =>
          rw [several, if_neg Bool.false_ne_true] at room
          rw [if_neg Bool.false_ne_true]
          exact regular_lengths ⟨data, known, carries, several⟩ room

theorem headed_agree {mem mem' : Nat → UInt8} (like : Agree n mem mem') (fits : r.headerLen ≤ n)
    (d : Nat) : Agree n (r.headed mem d) (r.headed mem' d) := by
  have long := headerLen_ge r.toRxInd
  have dst : destination r.ds + ethAlen ≤ n := by
    have third := destination_le r.ds
    simp only [addr3, addr2, addr1] at third
    simp only [ethAlen]
    omega
  have src : source r.ds + ethAlen ≤ n := by
    obtain beside | ⟨four, -, -, head⟩ := source_beside r.toRxInd
    · omega
    · rw [four]
      exact Nat.le_trans (Nat.le_of_eq head.symm) fits
  rw [RxInd.headed, RxInd.headed, like.slice_eq dst, like.slice_eq src]
  exact (like.store _ _).store _ _

section WithBytes
variable (same : Agree n r.bytes bytes)
include same

theorem withBytes_frameCtl (fits : 2 ≤ n) : (r.withBytes bytes).frameCtl = r.frameCtl := by
  simp only [RxInd.frameCtl, read16, withBytes, ← same 0 (by omega), ← same 1 (by omega)]

theorem withBytes_getRscBuf (fits : 16 ≤ n) : (r.withBytes bytes).getRscBuf = r.getRscBuf := by
  have address : slice bytes addr1 ethAlen = slice r.bytes addr1 ethAlen :=
    (same.slice_eq (by simp only [addr1, ethAlen]; omega)).symm
  simp only [RxInd.getRscBuf, RxInd.getCipher, withBytes, address]
  rfl

theorem withBytes_headerLen (fits : 16 ≤ n) : (r.withBytes bytes).headerLen = r.headerLen := by
  simp only [RxInd.headerLen, RxInd.ds, withBytes_frameCtl same (show 2 ≤ n by omega),
    withBytes_getRscBuf same fits]
  rfl

theorem withBytes_aMsdu (data : isData r.frameCtl = true) (fits : r.headerLen ≤ n) :
    (r.withBytes bytes).aMsdu = r.aMsdu := by
  have head := getHdrlen_data data
  have low := getHdrlen_ge _ data
  have qos : read16 bytes (getHdrlen r.frameCtl - 2) =
      read16 r.bytes (getHdrlen r.frameCtl - 2) := by
    rw [read16, read16, ← same _ (by omega), ← same _ (by omega)]
  simp only [RxInd.aMsdu, withBytes_frameCtl same (show 2 ≤ n by omega)]
  rw [withBytes, qos]

theorem withBytes_body (fits : r.headerLen ≤ n) :
    (r.withBytes bytes).body = r.body := by
  have long := headerLen_ge r.toRxInd
  simp only [body, withBytes_frameCtl same (show 2 ≤ n by omega),
    withBytes_getRscBuf same (show 16 ≤ n by omega)]
  rfl

theorem withBytes_aMsduBody (fits : r.headerLen ≤ n)
    (stop : r.body.data + r.body.len ≤ n) (touched touched' : List (Nat × Nat)) :
    ((r.withBytes bytes).aMsduBody touched').delivered = (r.aMsduBody touched).delivered := by
  obtain ⟨t, t', ok, result, result', like⟩ := parse_like r.alloc (same.shift stop)
  simp only [aMsduBody, withBytes_body same fits, result]
  simp only [withBytes, result']
  have view : t'.view = t.view := funext fun b => (like.view b).symm
  rw [view, like.same]

/-- The LLC header is the same, and so is what is written in front of it. -/
theorem encapsulation_agree (fits : r.llcEnd ≤ n) :
    Agree n (encapsulation r.bytes r.nbuf r.headerLen).1
        (encapsulation bytes r.nbuf r.headerLen).1 ∧
      (encapsulation bytes r.nbuf r.headerLen).2 =
        (encapsulation r.bytes r.nbuf r.headerLen).2 := by
  have whole := llcEnd_ge r
  have data : r.nbuf.data = 0 := rfl
  have converted : Agree n (convert r.bytes r.nbuf r.headerLen).1
        (convert bytes r.nbuf r.headerLen).1 ∧
      (convert bytes r.nbuf r.headerLen).2 = (convert r.bytes r.nbuf r.headerLen).2 :=
    ⟨same.store _ _, rfl⟩
  have kept : Agree n (decapsulate r.bytes r.headerLen).1 (decapsulate bytes r.headerLen).1 ∧
      (decapsulate bytes r.headerLen).2 = (decapsulate r.bytes r.headerLen).2 := ⟨same, rfl⟩
  simp only [encapsulation, data, Nat.zero_add,
    ← same.slice_eq (show r.headerLen + 4 ≤ n by omega)]
  by_cases hi : slice r.bytes r.headerLen 4 = [0xAA, 0xAA, 0x03, 0x00]
  · simp only [llcEnd, hi, if_true] at fits ⊢
    rw [← same.slice_eq (show r.headerLen + 4 + 2 ≤ n by split at fits <;> omega)]
    by_cases lo : slice r.bytes (r.headerLen + 4) 2 = [0x00, 0x00]
    · simp only [lo, if_true] at fits ⊢
      rw [← same.slice_eq (show r.headerLen + 6 + 2 ≤ n by omega)]
      split
      · exact converted
      · exact kept
    · simp only [lo, if_false]
      split
      · exact kept
      · exact converted
  · simp only [hi, if_false]
    exact converted

theorem withBytes_regular (regular : r.toRxInd.Regular) (fits : r.llcEnd ≤ n)
    (stop : r.nbuf.data + r.nbuf.len ≤ n) (touched touched' : List (Nat × Nat)) :
    ((r.withBytes bytes).regular touched').delivered = (r.regular touched).delivered := by
  have whole := llcEnd_ge r
  have long := headerLen_ge r.toRxInd
  have frameCtl := withBytes_frameCtl same (show 2 ≤ n by omega)
  have headerLen := withBytes_headerLen same (show 16 ≤ n by omega)
  have regular' : (r.withBytes bytes).toRxInd.Regular := by
    refine ⟨?_, regular.known, ?_, ?_⟩
    · rw [frameCtl]
      exact regular.data
    · rw [frameCtl]
      exact regular.carries
    · rw [withBytes_aMsdu same regular.data (show r.headerLen ≤ n by omega)]
      exact regular.single
  obtain ⟨like, off⟩ := encapsulation_agree same fits
  obtain ⟨nbuf, pulled⟩ : ∃ nbuf,
    r.nbuf.pull (encapsulation r.bytes r.nbuf r.headerLen).2 = nbuf := ⟨_, rfl⟩
  have inside : nbuf.data + nbuf.len ≤ n := by
    rw [← pulled, Nbuf.pull_stop]
    exact stop
  have pulled' : (r.withBytes bytes).nbuf.pull
      (encapsulation (r.withBytes bytes).bytes (r.withBytes bytes).nbuf
        (r.withBytes bytes).headerLen).2 = nbuf := by
    rw [headerLen, ← pulled, ← off]
    rfl
  rw [regular_eq regular touched pulled, regular_eq regular' touched' pulled', headerLen]
  have headed := headed_agree (r := r) like (show r.headerLen ≤ n by omega) nbuf.data
  have ds : (r.withBytes bytes).ds = r.ds := by
    simp only [RxInd.ds, frameCtl]
  simp only [Delivered.frame.injEq]
  rw [headed.slice_eq inside]
  simp only [RxInd.headed, ds]
  rfl

end WithBytes

theorem Fits.own (h : r.Fits) (same : Agree r.msdulen.toNat r.bytes bytes) :
    (r.withBytes bytes).handle.delivered = r.handle.delivered := by
  obtain ⟨addresses, sequence⟩ := h
  simp only [addr2, addr1, ethAlen] at addresses
  have frameCtl := withBytes_frameCtl same (show 2 ≤ r.msdulen.toNat by omega)
  cases data : isData r.frameCtl with
  | false =>
    rw [handle_other data, handle_other (r := r.withBytes bytes) (by rw [frameCtl, data])]
    rfl
  | true =>
    have data' : isData (r.withBytes bytes).frameCtl = true := by rw [frameCtl, data]
    cases known : r.srcSta.isNone with
    | true =>
      rw [handle_unknown data known, handle_unknown data' known]
      rfl
    | false =>
      obtain ⟨-, payload⟩ := sequence data known
      cases carries : isNullPkt r.frameCtl with
      | true =>
        rw [handle_null data known carries, handle_null data' known (by rw [frameCtl, carries])]
        rfl
      | false =>
        obtain ⟨header, room⟩ := payload carries
        rw [handle_payload data known carries,
          handle_payload data' known (by rw [frameCtl, carries]),
          withBytes_aMsdu same data header]
        cases several : r.aMsdu with
        | true =>
          rw [if_pos rfl, if_pos rfl]
          exact withBytes_aMsduBody same header (body_stop_le r) _ _
        | false =>
          rw [several, if_neg Bool.false_ne_true] at room
          rw [if_neg Bool.false_ne_true, if_neg Bool.false_ne_true]
          exact withBytes_regular same ⟨data, known, carries, several⟩ room
            (nbuf_stop_le r.toRxInd) _ _

/-- The frame is kept to exactly where it holds the headers that it is read for. -/
theorem inside_iff (r : Received) : r.Inside ↔ r.Fits := by
  constructor
  · exact fun inside => touched_iff.1 inside.touched
  · exact fun fits => ⟨touched_iff.2 fits, fits.lengths, fun _ => fits.own⟩

/-- A data frame of a known station that ends with its header. -/
def bareFrame : Received where
  bytes j := if j = 0 then 0x08 else 0
  msdulen := 24
  macAddr := [0, 0, 0, 0, 0, 0]
  srcSta := some .none
  groupCipher := .none
  isAp := true
  manFrame := false
  alloc _ := true

/-- An LLC header is read behind the end of the frame. -/
theorem outside_bareFrame : ¬ ∀ r : Received, r.Inside := by
  intro all
  have read := (all bareFrame).touched (24, 4) (by decide)
  revert read
  decide

end Received

end Wave300.Rx
