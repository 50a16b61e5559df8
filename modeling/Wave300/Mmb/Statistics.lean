import Wave300.Lib.Endian
import Wave300.Lib.Memory

/-!
# Requests for statistics

`hw_mmb.c`: a request comes in a buffer of any size that starts with a header, and the reply is put
behind the header. The statistics are those of the driver, or the ones the firmware answers a
message with.

Which counters the statistics of the driver are taken from is left out, since no branch looks at
them. With the memory of the buffer go the ranges that were written, and the ranges of the payloads
of messages that were read.
-/

namespace Wave300.Mmb

open Lib

/-- `MTIDL_SRC_FW` -/
def srcFw : Nat := 1
/-- `MTIDL_SRC_DRV` -/
def srcDrv : Nat := 2
/-- `MTLK_WSSA_DRV_STATUS_HW` -/
def drvStatusHw : Nat := 2
/-- `MTLK_WSSA_DRV_RECOVERY` -/
def drvRecovery : Nat := 9
/-- `MTLK_WSSA_DRV_DEBUG_STATUS_HW` -/
def drvDebugStatusHw : Nat := 11
/-- `DBG_STATS_FWSTATUS` -/
def dbgStatsFwstatus : Nat := 1000
/-- `sizeof(mtlk_wssa_info_hdr_t)` -/
def infoHdrSize : Nat := 16

/-- `MTLK_ERR_OK` -/
def errOk : Int := 0
/-- `MTLK_ERR_NO_RESOURCES` -/
def errNoResources : Int := -12
/-- `MTLK_ERR_BUF_TOO_SMALL` -/
def errBufTooSmall : Int := -18
/-- `MTLK_ERR_MAC` -/
def errMac : Int := -23
/-- `MTLK_ERR_NO_ENTRY` -/
def errNoEntry : Int := -28

/-- `mtlk_wssa_drv_hw_stats_t`, `mtlk_wssa_drv_debug_hw_stats_t` and
`mtlk_wssa_drv_recovery_stats_t` as they are filled in, field by field. -/
structure HwStats where
  hw : Vector UInt32 16
  debug : Vector UInt32 98
  recovery : Vector UInt32 4

/-- The messages that ask for statistics. -/
inductive FwMessage where
  /-- `UM_DBG_GET_STATISTICS_REQ` -/
  | getStatistics
  /-- `UM_DBG_GET_FW_STATS_REQ` -/
  | getFwStats (statId statIndex : Nat)

/-- Where `u16Status` is in the payload. -/
def FwMessage.statusAt : FwMessage → Nat
  | getStatistics => 0
  | getFwStats .. => 6

/-- Where the statistics are in the payload: `au32Statistics` and `uStatistics`. -/
def FwMessage.statisticsAt : FwMessage → Nat
  | getStatistics => 4
  | getFwStats .. => 8

/-- How long the statistics are: `sizeof(MTIDL_GeneralStats)` and the largest of the statistics in
`uStatistics`. -/
def FwMessage.statisticsSize : FwMessage → Nat
  | getStatistics => 472
  | getFwStats .. => 124

/-- What becomes of a message: whether there is a slot for it, what sending it returns, and what
lies from the payload on when it is back. -/
structure FwReply where
  entry : Bool
  res : Int
  payload : Nat → UInt8

/-- `u16Status`, in the byte order of the firmware. -/
def FwReply.status (reply : FwReply) (msg : FwMessage) : Nat :=
  ofBytes (slice reply.payload msg.statusAt 2).reverse

/-- The memory of the buffer and `*size`, with the ranges that were written, and the ranges that
were read of the payloads. -/
structure Handled where
  mem : Nat → UInt8
  size : Nat
  writes : List (Nat × Nat)
  reads : List (FwMessage × Nat × Nat)

namespace Handled

def write (h : Handled) (a : Nat) (bytes : List UInt8) : Handled :=
  { h with mem := store h.mem a bytes, writes := (a, bytes.length) :: h.writes }

/-- `memcpy` from a payload. -/
def copy (h : Handled) (a : Nat) (msg : FwMessage) (reply : FwReply) (n : Nat) : Handled :=
  { h.write a (slice reply.payload msg.statisticsAt n) with
    reads := (msg, msg.statisticsAt, n) :: h.reads }

end Handled

variable (e : Endian)

/-- `hdr->processing_result` -/
def Handled.setResult (h : Handled) (buffer : Nat) (res : Int) : Handled :=
  h.write (buffer + 12) (e.bytes 4 (res % 2 ^ 32).toNat)

/-- What `_mtlk_mmb_request_general_fw_stats` and `_mtlk_mmb_request_fw_stats` share: `n` bytes of
the answer to a message. -/
def requestStats (fw : FwMessage → FwReply) (msg : FwMessage) (n : Nat) (h : Handled)
    (stats : Nat) : Handled × Int :=
  let reply := fw msg
  if reply.entry then
    if reply.res ≠ errOk then (h, reply.res)
    else if reply.status msg ≠ 0 then (h, errMac)
    else (h.copy stats msg reply n, errOk)
  else (h, errNoResources)

/-- `_mtlk_mmb_request_general_fw_stats` -/
def requestGeneralFwStats (fw : FwMessage → FwReply) (h : Handled) (stats : Nat) : Handled × Int :=
  requestStats fw .getStatistics 472 h stats

/-- `_mtlk_mmb_request_fw_stats` -/
def requestFwStats (fw : FwMessage → FwReply) (infoId infoIndex : Nat) (h : Handled)
    (statsBuffer bufferSize : Nat) : Handled × Int :=
  requestStats fw (.getFwStats infoId infoIndex) bufferSize h statsBuffer

/-- A case of the switch for the statistics of the driver. -/
def drvStats {n : Nat} (stats : Vector UInt32 n) (buffer : Nat) (h : Handled) : Handled :=
  if 4 * n + infoHdrSize > h.size then h.setResult e buffer errBufTooSmall
  else
    let filled := h.write (buffer + infoHdrSize) (stats.toList.flatMap fun v => e.bytes 4 v.toNat)
    { filled.setResult e buffer errOk with size := 4 * n + infoHdrSize }

/-- There is no such information. -/
def noEntry (buffer : Nat) (h : Handled) : Handled :=
  { h.setResult e buffer errNoEntry with size := infoHdrSize }

/-- `hdr->info_source` -/
def infoSource (mem : Nat → UInt8) (buffer : Nat) : Nat := e.load (slice mem buffer 4)

/-- `hdr->info_id` -/
def infoId (mem : Nat → UInt8) (buffer : Nat) : Nat := e.load (slice mem (buffer + 4) 4)

/-- `hdr->info_index` -/
def infoIndex (mem : Nat → UInt8) (buffer : Nat) : Nat := e.load (slice mem (buffer + 8) 2)

/-- The branch of `MTIDL_SRC_FW`. -/
def fwStats (fw : FwMessage → FwReply) (buffer : Nat) (h : Handled) : Handled :=
  let (copied, res) :=
    if infoId e h.mem buffer = dbgStatsFwstatus then
      requestGeneralFwStats fw h (buffer + infoHdrSize)
    else
      requestFwStats fw (infoId e h.mem buffer) (infoIndex e h.mem buffer) h (buffer + infoHdrSize)
        (h.size - infoHdrSize)
  copied.setResult e buffer res

/-- `_mtlk_hw_stat_handle_request`, where `full` is `MTLK_MTIDL_HW_STAT_FULL`. -/
def hwStatHandleRequest (full : Bool) (hw : HwStats) (fw : FwMessage → FwReply) (buffer : Nat)
    (h : Handled) : Handled :=
  if infoHdrSize > h.size then h
  else if infoSource e h.mem buffer = srcDrv then
    if infoId e h.mem buffer = drvStatusHw then drvStats e hw.hw buffer h
    else if full ∧ infoId e h.mem buffer = drvDebugStatusHw then drvStats e hw.debug buffer h
    else if infoId e h.mem buffer = drvRecovery then drvStats e hw.recovery buffer h
    else noEntry e buffer h
  else if infoSource e h.mem buffer = srcFw then fwStats e fw buffer h
  else noEntry e buffer h

/-! ## Staying inside -/

/-- What a request may do: the buffer of `size` bytes is written, the statistics in the payload are
read, and there is no more to the reply than the buffer holds. -/
structure Inside (buffer size : Nat) (h : Handled) : Prop where
  writes : ∀ r ∈ h.writes, buffer ≤ r.1 ∧ r.1 + r.2 ≤ buffer + size
  reads : ∀ r ∈ h.reads, r.1.statisticsAt ≤ r.2.1 ∧
    r.2.1 + r.2.2 ≤ r.1.statisticsAt + r.1.statisticsSize
  size : h.size ≤ size

/-- A message comes back with statistics. -/
def Answered (fw : FwMessage → FwReply) (msg : FwMessage) : Prop :=
  (fw msg).entry ∧ (fw msg).res = errOk ∧ (fw msg).status msg = 0

/-- The general statistics need a buffer that holds them, the others one that holds no more than
they are. -/
def Suits (fw : FwMessage → FwReply) (mem : Nat → UInt8) (buffer size : Nat) : Prop :=
  infoHdrSize ≤ size → infoSource e mem buffer = srcFw →
    if infoId e mem buffer = dbgStatsFwstatus then
      Answered fw .getStatistics → FwMessage.getStatistics.statisticsSize + infoHdrSize ≤ size
    else
      let msg := FwMessage.getFwStats (infoId e mem buffer) (infoIndex e mem buffer)
      Answered fw msg → size ≤ msg.statisticsSize + infoHdrSize

variable {fw fw' : FwMessage → FwReply} {msg : FwMessage} {n buffer size : Nat} {h : Handled}

theorem requestStats_answered (answered : Answered fw msg) (stats : Nat) :
    requestStats fw msg n h stats = (h.copy stats msg (fw msg) n, errOk) := by
  obtain ⟨entry, ok, status⟩ := answered
  simp [requestStats, entry, ok, status]

theorem requestStats_failed (failed : ¬Answered fw msg) (stats : Nat) :
    ∃ res, requestStats fw msg n h stats = (h, res) := by
  unfold requestStats
  dsimp only
  split
  case isFalse => exact ⟨_, rfl⟩
  case isTrue entry =>
    split
    case isTrue => exact ⟨_, rfl⟩
    case isFalse ok =>
      split
      case isTrue => exact ⟨_, rfl⟩
      case isFalse status => exact absurd ⟨entry, not_not.1 ok, not_not.1 status⟩ failed

theorem Inside.write (inside : Inside buffer size h) {a : Nat} {bytes : List UInt8}
    (low : buffer ≤ a) (high : a + bytes.length ≤ buffer + size) :
    Inside buffer size (h.write a bytes) := by
  constructor
  case writes => exact List.forall_mem_cons.2 ⟨⟨low, high⟩, inside.writes⟩
  case reads => exact inside.reads
  case size => exact inside.size

theorem Inside.setResult (inside : Inside buffer size h) (long : infoHdrSize ≤ size) (res : Int) :
    Inside buffer size (h.setResult e buffer res) := by
  apply inside.write (Nat.le_add_right ..)
  rw [Endian.length_bytes]
  unfold infoHdrSize at long
  omega

theorem Inside.resize (inside : Inside buffer size h) {s : Nat} (le : s ≤ size) :
    Inside buffer size { h with size := s } := ⟨inside.writes, inside.reads, le⟩

theorem length_statsBytes {l : List UInt32} :
    (l.flatMap fun v => e.bytes 4 v.toNat).length = 4 * l.length := by
  simp [List.length_flatMap, Nat.mul_comm]

theorem Inside.drvStats (inside : Inside buffer h.size h) (long : infoHdrSize ≤ h.size)
    (stats : Vector UInt32 n) : Inside buffer h.size (drvStats e stats buffer h) := by
  unfold Mmb.drvStats
  split
  case isTrue => exact inside.setResult e long errBufTooSmall
  case isFalse room =>
    have fits := Nat.not_lt.1 room
    apply Inside.resize _ fits
    apply Inside.setResult e _ long
    apply inside.write (Nat.le_add_right ..)
    rw [length_statsBytes, Vector.length_toList]
    omega

theorem Inside.noEntry (inside : Inside buffer h.size h) (long : infoHdrSize ≤ h.size) :
    Inside buffer h.size (noEntry e buffer h) :=
  (inside.setResult e long errNoEntry).resize long

/-- A copy of statistics that is followed by the result. -/
theorem Inside.copied_iff (inside : Inside buffer size h) (long : infoHdrSize ≤ size)
    (reply : FwReply) (res : Int) :
    Inside buffer size ((h.copy (buffer + infoHdrSize) msg reply n).setResult e buffer res) ↔
      infoHdrSize + n ≤ size ∧ n ≤ msg.statisticsSize := by
  constructor
  · intro copied
    have written := copied.writes (buffer + infoHdrSize, n)
      (by simp [Handled.copy, Handled.setResult, Handled.write])
    have read := copied.reads (msg, msg.statisticsAt, n)
      (by simp [Handled.copy, Handled.setResult, Handled.write])
    dsimp only at written read
    omega
  · rintro ⟨room, part⟩
    apply Inside.setResult e _ long
    have written : Inside buffer size
        (h.write (buffer + infoHdrSize) (slice reply.payload msg.statisticsAt n)) :=
      inside.write (Nat.le_add_right buffer infoHdrSize) (by rw [slice_length]; omega)
    exact ⟨written.writes, List.forall_mem_cons.2 ⟨⟨le_rfl, by dsimp only; omega⟩, written.reads⟩,
      written.size⟩

/-- What the request of a message stays inside. -/
theorem Inside.requestStats_iff (inside : Inside buffer size h) (long : infoHdrSize ≤ size) :
    Inside buffer size ((requestStats fw msg n h (buffer + infoHdrSize)).1.setResult e buffer
      (requestStats fw msg n h (buffer + infoHdrSize)).2) ↔
      (Answered fw msg → infoHdrSize + n ≤ size ∧ n ≤ msg.statisticsSize) := by
  by_cases answered : Answered fw msg
  · rw [requestStats_answered answered, inside.copied_iff e long]
    exact ⟨fun room _ => room, fun room => room answered⟩
  · obtain ⟨res, failed⟩ := requestStats_failed (n := n) (h := h) answered (buffer + infoHdrSize)
    rw [failed]
    exact ⟨fun _ known => absurd known answered, fun _ => inside.setResult e long res⟩

theorem Inside.fwStats_iff (inside : Inside buffer h.size h) (long : infoHdrSize ≤ h.size)
    (source : infoSource e h.mem buffer = srcFw) :
    Inside buffer h.size (fwStats e fw buffer h) ↔ Suits e fw h.mem buffer h.size := by
  have suits : Suits e fw h.mem buffer h.size ↔ _ := ⟨fun s => s long source, fun s _ _ => s⟩
  rw [suits, fwStats]
  dsimp only
  split
  case isTrue general =>
    rw [requestGeneralFwStats, inside.requestStats_iff e long]
    refine imp_congr_right fun _ => ?_
    simp only [FwMessage.statisticsSize, infoHdrSize]
    omega
  case isFalse other =>
    rw [requestFwStats, inside.requestStats_iff e long]
    refine imp_congr_right fun _ => ?_
    simp only [FwMessage.statisticsSize]
    omega

theorem Inside.request_iff (inside : Inside buffer h.size h) (full : Bool) (hw : HwStats) :
    Inside buffer h.size (hwStatHandleRequest e full hw fw buffer h) ↔
      Suits e fw h.mem buffer h.size := by
  unfold hwStatHandleRequest
  split
  case isTrue short => exact ⟨fun _ long => absurd short (Nat.not_lt.2 long), fun _ => inside⟩
  case isFalse enough =>
    have long := Nat.not_lt.1 enough
    split
    case isTrue drv =>
      have suits : Suits e fw h.mem buffer h.size := by
        intro _ source
        exact absurd (drv.symm.trans source) (by decide)
      refine ⟨fun _ => suits, fun _ => ?_⟩
      split
      · exact inside.drvStats e long hw.hw
      · split
        · exact inside.drvStats e long hw.debug
        · split
          · exact inside.drvStats e long hw.recovery
          · exact inside.noEntry e long
    case isFalse =>
      split
      case isTrue source => exact inside.fwStats_iff e long source
      case isFalse unknown =>
        exact ⟨fun _ _ source => absurd source unknown, fun _ => inside.noEntry e long⟩

/-- A request stays inside its buffer and the statistics exactly if the buffer suits what is asked
of the firmware. -/
theorem request_inside_iff (full : Bool) (hw : HwStats) (fw : FwMessage → FwReply)
    (mem : Nat → UInt8) (buffer size : Nat) :
    Inside buffer size (hwStatHandleRequest e full hw fw buffer ⟨mem, size, [], []⟩) ↔
      Suits e fw mem buffer size := by
  have inside : Inside buffer size ⟨mem, size, [], []⟩ := by
    constructor
    case writes => simp
    case reads => simp
    case size => exact le_rfl
  exact Inside.request_iff (h := ⟨mem, size, [], []⟩) e inside full hw

/-- A header that asks the firmware for the general statistics, on a big-endian host. -/
def generalRequest : Nat → UInt8 :=
  store (fun _ => 0) 0 [0, 0, 0, 1, 0, 0, 3, 232, 0, 0, 0, 0, 0, 0, 0, 0]

theorem general_stats_past_the_buffer :
    ¬∀ (e : Endian) (full : Bool) (hw : HwStats) (fw : FwMessage → FwReply) (mem : Nat → UInt8)
      (buffer size : Nat),
      Inside buffer size (hwStatHandleRequest e full hw fw buffer ⟨mem, size, [], []⟩) := by
  intro always
  have inside := always .big false
    ⟨Vector.replicate 16 0, Vector.replicate 98 0, Vector.replicate 4 0⟩
    (fun _ => ⟨true, errOk, fun _ => 0⟩) generalRequest 0 16
  have written := inside.writes (16, 472)
  have answered : Answered (fun _ => ⟨true, errOk, fun _ => 0⟩) .getStatistics :=
    ⟨rfl, rfl, by decide⟩
  rw [hwStatHandleRequest, if_neg (by decide), if_neg (by decide), if_pos (by decide), fwStats,
    if_pos (by decide), requestGeneralFwStats, requestStats_answered answered] at written
  exact absurd (written (by simp [Handled.setResult, Handled.write, Handled.copy, infoHdrSize])).2
    (by decide)

/-! ## What this means for the memory -/

/-- Only the ranges that are listed have changed since `m`. -/
def Logged (m : Nat → UInt8) (h : Handled) : Prop := ChangesIn h.writes m h.mem

variable {m : Nat → UInt8}

theorem Logged.write (logged : Logged m h) (a : Nat) (bytes : List UInt8) :
    Logged m (h.write a bytes) := by
  apply ChangesIn.trans (logged.of_subset (List.subset_cons_self ..))
  exact store_changesIn List.mem_cons_self

theorem Logged.drvStats (logged : Logged m h) (stats : Vector UInt32 n) :
    Logged m (drvStats e stats buffer h) := by
  unfold Mmb.drvStats
  split
  · exact logged.write _ _
  · exact (logged.write _ _).write _ _

theorem Logged.requestStats (logged : Logged m h) (stats : Nat) :
    Logged m (requestStats fw msg n h stats).1 := by
  by_cases answered : Answered fw msg
  · rw [requestStats_answered answered]
    exact logged.write stats _
  · obtain ⟨res, failed⟩ := requestStats_failed (n := n) (h := h) answered stats
    rw [failed]
    exact logged

theorem Logged.fwStats (logged : Logged m h) : Logged m (fwStats e fw buffer h) := by
  unfold Mmb.fwStats
  dsimp only
  apply Logged.write
  split
  · exact logged.requestStats _
  · exact logged.requestStats _

theorem Logged.request (logged : Logged m h) (full : Bool) (hw : HwStats) :
    Logged m (hwStatHandleRequest e full hw fw buffer h) := by
  unfold hwStatHandleRequest
  split
  · exact logged
  · split
    · split
      · exact logged.drvStats e hw.hw
      · split
        · exact logged.drvStats e hw.debug
        · split
          · exact logged.drvStats e hw.recovery
          · exact logged.write _ _
    · split
      · exact logged.fwStats e
      · exact logged.write _ _

/-- What stays inside the buffer leaves the memory around it alone. -/
theorem Inside.changesIn (inside : Inside buffer size h) (logged : Logged m h) :
    ChangesIn [(buffer, size)] m h.mem := by
  apply logged.mono
  intro j out r mem
  have part := inside.writes r mem
  have beside := List.forall_mem_singleton.1 out
  omega

/-- Two firmwares answer alike, up to what lies around the statistics. -/
def AnswersAlike (fw fw' : FwMessage → FwReply) : Prop := ∀ msg,
  (fw' msg).entry = (fw msg).entry ∧ (fw' msg).res = (fw msg).res ∧
    (fw' msg).status msg = (fw msg).status msg ∧
    slice (fw' msg).payload msg.statisticsAt msg.statisticsSize =
      slice (fw msg).payload msg.statisticsAt msg.statisticsSize

theorem AnswersAlike.requestStats (alike : AnswersAlike fw fw') (stats : Nat)
    (part : Answered fw msg → n ≤ msg.statisticsSize) :
    requestStats fw' msg n h stats = requestStats fw msg n h stats := by
  obtain ⟨entry, res, status, bytes⟩ := alike msg
  unfold Mmb.requestStats
  simp only [entry, res, status]
  split
  case isFalse => rfl
  case isTrue slot =>
    split
    case isTrue => rfl
    case isFalse ok =>
      split
      case isTrue => rfl
      case isFalse good =>
        have within := part ⟨slot, not_not.1 ok, not_not.1 good⟩
        have copied : slice (fw' msg).payload msg.statisticsAt n =
            slice (fw msg).payload msg.statisticsAt n := by
          rw [← slice_take within, bytes, slice_take within]
        rw [Handled.copy, copied, Handled.copy]

/-- The reply to a request that stays inside tells nothing of what lies around the statistics. -/
theorem Inside.same_reply (inside : Inside buffer h.size h) (full : Bool) (hw : HwStats)
    (alike : AnswersAlike fw fw')
    (stays : Inside buffer h.size (hwStatHandleRequest e full hw fw buffer h)) :
    hwStatHandleRequest e full hw fw' buffer h = hwStatHandleRequest e full hw fw buffer h := by
  have suits := (inside.request_iff e full hw).1 stays
  unfold hwStatHandleRequest
  split
  case isTrue => rfl
  case isFalse enough =>
    split
    case isTrue => rfl
    case isFalse =>
      split
      case isFalse => rfl
      case isTrue source =>
        have fits := suits (Nat.not_lt.1 enough) source
        unfold fwStats
        split at fits
        case isTrue general =>
          have whole : Answered fw .getStatistics → 472 ≤ FwMessage.getStatistics.statisticsSize :=
            fun _ => le_rfl
          rw [if_pos general, if_pos general, requestGeneralFwStats, alike.requestStats _ whole,
            requestGeneralFwStats]
        case isFalse other =>
          have part : Answered fw (.getFwStats (infoId e h.mem buffer) (infoIndex e h.mem buffer)) →
              h.size - infoHdrSize ≤ _ := fun answered => Nat.sub_le_of_le_add (fits answered)
          rw [if_neg other, if_neg other, requestFwStats, alike.requestStats _ part, requestFwStats]

/-- A request that stays inside leaves the memory around the buffer alone. -/
theorem Inside.around_unchanged (full : Bool) (hw : HwStats) (fw : FwMessage → FwReply)
    (stays : Inside buffer size (hwStatHandleRequest e full hw fw buffer ⟨m, size, [], []⟩)) :
    ChangesIn [(buffer, size)] m
      (hwStatHandleRequest e full hw fw buffer ⟨m, size, [], []⟩).mem := by
  have fresh : Logged m ⟨m, size, [], []⟩ := ChangesIn.refl _ m
  exact stays.changesIn (fresh.request e full hw)

end Wave300.Mmb
