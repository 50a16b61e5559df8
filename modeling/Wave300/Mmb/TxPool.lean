import Wave300.Lib.Accounts

/-!
# The pool of TX data descriptors

`hw_mmb.c`: `tx_data` is the ring of data requests with its mirror array. A descriptor is in the
free list or in the used list. It is got from the free list, sent with a network buffer or
released unsent, and freed when the firmware confirms it. The tear-down frees the network buffers
of what is still in the used list.

Network buffers are numbered in the order in which `_mtlk_hw_send_data` is handed them. The
mapping of the buffers and the timestamps are left out. `held`, `sent`, `handed`, `passed`, `freed`
and `usedCounts` are not in the source: they say which descriptors of the used list were sent, what
became of the buffers, and how many descriptors were in use since the pool was made.
-/

namespace Wave300.Mmb.Card

open Lib

/-- `mtlk_hw_data_req_mirror_t` -/
structure DataReq where
  nbuf : Option Nat
  size : Nat
  staId : Nat
  ac : Nat
  vapHandle : Nat
  deriving DecidableEq

/-- The mirror after `memset`. -/
def DataReq.zero : DataReq := ⟨none, 0, 0, 0, 0⟩

/-- `mtlk_core_release_tx_data_t` -/
structure ReleaseTxData where
  msg : Nat
  nbuf : Option Nat
  size : Nat
  accessCategory : Nat
  status : Nat
  resourcesFree : Nat
  nofRetries : Nat
  deriving DecidableEq

/-- What `_mtlk_hw_send_data` is given besides the descriptor and the buffer. -/
structure SendData where
  staId : Nat
  accessCategory : Nat
  size : Nat
  vapHandle : Nat
  deriving DecidableEq

/-- `tx_data` with its mirror, `tx_data_nof_free_bds`, `tx_data_max_used_bds` and the flag
`HW_FLAGS_PREPARED_DATA_REQ_BDR`. -/
structure TxData where
  prepared : Bool
  nofBds : Nat
  mirror : Nat → DataReq
  freeList : List Nat
  usedList : List Nat
  nofFreeBds : Nat
  maxUsedBds : Nat
  held : List Nat
  sent : List Nat
  handed : Nat
  passed : List ReleaseTxData
  freed : List Nat
  usedCounts : List Nat

namespace TxData

def init : TxData where
  prepared := false
  nofBds := 0
  mirror := fun _ => .zero
  freeList := []
  usedList := []
  nofFreeBds := 0
  maxUsedBds := 0
  held := []
  sent := []
  handed := 0
  passed := []
  freed := []
  usedCounts := []

/-- `_mtlk_mmb_get_msg_from_data_pool` -/
def getMsgFromDataPool (s : TxData) (vapHandle : Nat) : TxData × Option Nat :=
  match s.freeList with
  | [] => (s, none)
  | i :: rest =>
    let nofFreeBds := s.nofFreeBds - 1
    let nofUsedBds := s.nofBds - nofFreeBds
    ({ s with
        freeList := rest
        nofFreeBds := nofFreeBds
        maxUsedBds := if nofUsedBds > s.maxUsedBds then nofUsedBds else s.maxUsedBds
        mirror := Function.update s.mirror i { s.mirror i with vapHandle := vapHandle }
        usedList := s.usedList ++ [i]
        held := i :: s.held
        usedCounts := s.usedCounts ++ [s.usedList.length + 1] }, some i)

/-- `_mtlk_hw_get_msg_to_send`, with the number of free messages it reports -/
def getMsgToSend (s : TxData) (vapHandle : Nat) : TxData × Option Nat × Nat :=
  let (s, msg) := s.getMsgFromDataPool vapHandle
  (s, msg, s.nofFreeBds)

/-- `_mtlk_mmb_free_sent_msg_to_data_pool` -/
def freeSentMsgToDataPool (s : TxData) (i : Nat) : TxData :=
  { s with
    usedList := s.usedList.erase i
    freeList := s.freeList ++ [i]
    nofFreeBds := s.nofFreeBds + 1
    usedCounts := s.usedCounts ++ [(s.usedList.erase i).length] }

/-- `_mtlk_hw_send_data`. Writing the message into the ring does not fail. -/
def sendData (s : TxData) (i : Nat) (data : SendData) : TxData :=
  { s with
    mirror := Function.update s.mirror i
      ⟨some s.handed, data.size, data.staId, data.accessCategory, data.vapHandle⟩
    handed := s.handed + 1
    held := s.held.erase i
    sent := i :: s.sent }

/-- `_mtlk_hw_release_msg_to_send` -/
def releaseMsgToSend (s : TxData) (i : Nat) : TxData :=
  { s with held := s.held.erase i }.freeSentMsgToDataPool i

/-- `_mtlk_mmb_handle_dat_cfm`, where `status` and `nofRetries` are read from the message. -/
def handleDatCfm (s : TxData) (i status nofRetries : Nat) : TxData :=
  let dataReq := s.mirror i
  { s with
    passed := s.passed ++ [ReleaseTxData.mk i dataReq.nbuf dataReq.size dataReq.ac status
      s.nofFreeBds nofRetries]
    sent := s.sent.erase i }.freeSentMsgToDataPool i

/-- The loop of `_mtlk_mmb_free_unconfirmed_tx_buffers` over what is left of the used list. -/
def freeUnconfirmed : List Nat → TxData → TxData
  | [], s => { s with usedList := [], held := [], sent := [] }
  | i :: rest, s =>
    freeUnconfirmed rest { s with freed := s.freed ++ (s.mirror i).nbuf.toList }

/-- `_mtlk_mmb_free_unconfirmed_tx_buffers` -/
def freeUnconfirmedTxBuffers (s : TxData) : TxData := freeUnconfirmed s.usedList s

/-- `_mtlk_mmb_cleanup_data_req_bdr`. `_mtlk_advanced_bdr_cleanup` empties the free list. -/
def cleanupDataReqBdr (s : TxData) : TxData :=
  if s.prepared then
    { s.freeUnconfirmedTxBuffers with freeList := [], usedList := [], prepared := false }
  else s

/-- `_mtlk_mmb_prepare_data_req_bdr`. `_mtlk_advanced_bdr_init` puts all descriptors into the free
list. -/
def prepareDataReqBdr (s : TxData) (nofBds : Nat) (allocated : Bool) : TxData :=
  if allocated then
    { s with
      nofBds := nofBds
      mirror := fun _ => .zero
      freeList := List.range nofBds
      usedList := []
      held := []
      sent := []
      nofFreeBds := nofBds
      maxUsedBds := 0
      usedCounts := [0]
      prepared := true }
  else s

/-- The descriptors there are. -/
def descriptors (s : TxData) : List Nat := if s.prepared then List.range s.nofBds else []

/-- The buffers that were handed over and neither passed on nor freed. -/
def outstanding (s : TxData) : List Nat := s.sent.filterMap fun i => (s.mirror i).nbuf

/-- The buffers that were passed to `release_tx_data`. -/
def passedBufs (s : TxData) : List Nat := s.passed.filterMap (·.nbuf)

/-- What the operations keep. -/
structure Sound (s : TxData) : Prop where
  lists : (s.freeList ++ s.usedList).Perm s.descriptors
  used : s.usedList.Perm (s.held ++ s.sent)
  nofFree : s.prepared → s.nofFreeBds = s.freeList.length
  peak : s.prepared → s.maxUsedBds ∈ s.usedCounts ∧ ∀ k ∈ s.usedCounts, k ≤ s.maxUsedBds
  counted : s.prepared → s.usedList.length ∈ s.usedCounts
  loaded : ∀ i ∈ s.sent, (s.mirror i).nbuf.isSome
  bufs : Accounted s.handed s.outstanding (s.passedBufs ++ s.freed)

variable {s : TxData} {i : Nat}

theorem Sound.init : Sound init where
  lists := List.Perm.nil
  used := List.Perm.nil
  nofFree := nofun
  peak := nofun
  counted := nofun
  loaded := nofun
  bufs := Accounted.none

theorem Sound.nodup (h : Sound s) : (s.freeList ++ s.usedList).Nodup := by
  apply h.lists.nodup_iff.2
  unfold descriptors
  split
  · exact List.nodup_range
  · exact List.nodup_nil

theorem Sound.used_nodup (h : Sound s) : (s.held ++ s.sent).Nodup :=
  h.used.nodup_iff.1 h.nodup.of_append_right

/-- The descriptors are counted by the lists. -/
theorem Sound.length_eq (h : Sound s) (prepared : s.prepared) :
    s.freeList.length + s.usedList.length = s.nofBds := by
  have total := h.lists.length_eq
  rwa [descriptors, if_pos prepared, List.length_append, List.length_range] at total

/-- There is a descriptor to be used only while there is a pool. -/
theorem Sound.prepared_of_mem (h : Sound s) (mem : i ∈ s.freeList ++ s.usedList) : s.prepared := by
  have there := h.lists.subset mem
  unfold descriptors at there
  split at there
  case isTrue prepared => exact prepared
  case isFalse => cases there

theorem Sound.used_of_held (h : Sound s) (mem : i ∈ s.held) : i ∈ s.usedList :=
  h.used.symm.subset (List.mem_append_left _ mem)

theorem Sound.used_of_sent (h : Sound s) (mem : i ∈ s.sent) : i ∈ s.usedList :=
  h.used.symm.subset (List.mem_append_right _ mem)

theorem Sound.getMsgFromDataPool (h : Sound s) (vapHandle : Nat) :
    Sound (s.getMsgFromDataPool vapHandle).1 := by
  unfold TxData.getMsgFromDataPool
  match free : s.freeList with
  | [] => exact h
  | i :: rest =>
    have mem : i ∈ s.freeList ++ s.usedList := by simp [free]
    have prepared := h.prepared_of_mem mem
    have total := h.length_eq prepared
    have nofFree := h.nofFree prepared
    obtain ⟨peak_mem, peak_le⟩ := h.peak prepared
    rw [free, List.length_cons] at total nofFree
    have nofUsed : s.nofBds - (s.nofFreeBds - 1) = s.usedList.length + 1 := by omega
    constructor
    case lists =>
      have lists := h.lists
      rw [free] at lists
      simpa [descriptors] using (List.perm_append_singleton i (rest ++ s.usedList)).trans lists
    case used =>
      exact (List.perm_append_singleton i s.usedList).trans (h.used.cons i)
    case nofFree =>
      intro _
      dsimp only
      omega
    case peak =>
      intro _
      dsimp only
      rw [nofUsed]
      constructor
      · split
        · simp
        · exact List.mem_append_left _ peak_mem
      · intro k mem
        obtain old | new := List.mem_append.1 mem
        · have := peak_le k old
          split <;> omega
        · have := List.mem_singleton.1 new
          split <;> omega
    case counted => simp
    case loaded =>
      intro j sent
      dsimp only
      by_cases e : j = i
      · subst e
        simpa using h.loaded j sent
      · simpa [e] using h.loaded j sent
    case bufs =>
      have same : (fun j => (Function.update s.mirror i
          { s.mirror i with vapHandle := vapHandle } j).nbuf) = fun j => (s.mirror j).nbuf := by
        funext j
        by_cases e : j = i
        · subst e
          simp
        · simp [e]
      have bufs := h.bufs
      unfold outstanding at bufs ⊢
      rwa [same]

/-- A descriptor goes back into the free list, and is neither held nor sent any more. -/
theorem Sound.freeSentMsgToDataPool {held sent : List Nat} {passed : List ReleaseTxData}
    (h : Sound s) (mem : i ∈ s.usedList) (used : (s.held ++ s.sent).Perm (i :: (held ++ sent)))
    (fewer : sent ⊆ s.sent)
    (bufs : Accounted s.handed (sent.filterMap fun j => (s.mirror j).nbuf)
      (passed.filterMap (·.nbuf) ++ s.freed)) :
    Sound (freeSentMsgToDataPool { s with held, sent, passed } i) := by
  have prepared := h.prepared_of_mem (List.mem_append_right _ mem)
  have erased : s.usedList.Perm (i :: s.usedList.erase i) := List.perm_cons_erase mem
  obtain ⟨peak_mem, peak_le⟩ := h.peak prepared
  have shorter : (s.usedList.erase i).length ≤ s.usedList.length := List.length_erase_le
  constructor
  case lists =>
    calc (s.freeList ++ [i]) ++ s.usedList.erase i
        |>.Perm (s.freeList ++ (i :: s.usedList.erase i)) := by simp
      _ |>.Perm (s.freeList ++ s.usedList) := erased.symm.append_left s.freeList
      _ |>.Perm s.descriptors := h.lists
  case used =>
    exact (List.perm_cons i).1 (erased.symm.trans (h.used.trans used))
  case nofFree =>
    intro _
    simpa [TxData.freeSentMsgToDataPool] using h.nofFree prepared
  case peak =>
    intro _
    constructor
    · exact List.mem_append_left _ peak_mem
    · intro k mem
      obtain old | new := List.mem_append.1 mem
      · exact peak_le k old
      · have now := peak_le _ (h.counted prepared)
        have e : k = (s.usedList.erase i).length := List.mem_singleton.1 new
        change k ≤ s.maxUsedBds
        omega
  case counted => simp [TxData.freeSentMsgToDataPool]
  case loaded => exact fun j mem => h.loaded j (fewer mem)
  case bufs => exact bufs

theorem Sound.releaseMsgToSend (h : Sound s) (mem : i ∈ s.held) :
    Sound (s.releaseMsgToSend i) := by
  have less : (s.held ++ s.sent).Perm (i :: (s.held.erase i ++ s.sent)) :=
    (List.perm_cons_erase mem).append_right s.sent
  exact h.freeSentMsgToDataPool (h.used_of_held mem) less (List.Subset.refl _) h.bufs

theorem Sound.handleDatCfm (h : Sound s) (mem : i ∈ s.sent) (status nofRetries : Nat) :
    Sound (s.handleDatCfm i status nofRetries) := by
  have erased : s.sent.Perm (i :: s.sent.erase i) := List.perm_cons_erase mem
  have less : (s.held ++ s.sent).Perm (i :: (s.held ++ s.sent.erase i)) :=
    (erased.append_left s.held).trans List.perm_middle
  obtain ⟨b, nbuf⟩ := Option.isSome_iff_exists.1 (h.loaded i mem)
  apply h.freeSentMsgToDataPool (h.used_of_sent mem) less List.erase_subset
  apply h.bufs.release [b]
  · have had := erased.filterMap fun j => (s.mirror j).nbuf
    simpa [outstanding, List.filterMap_cons, nbuf] using had
  · simp [passedBufs, nbuf]

theorem Sound.sendData (h : Sound s) (mem : i ∈ s.held) (data : SendData) :
    Sound (s.sendData i data) := by
  have unsent : i ∉ s.sent := fun other => List.disjoint_of_nodup_append h.used_nodup mem other
  have others : ∀ j ∈ s.sent, Function.update s.mirror i
      ⟨some s.handed, data.size, data.staId, data.accessCategory, data.vapHandle⟩ j =
      s.mirror j := by
    intro j sent
    have ne : j ≠ i := fun e => unsent (e ▸ sent)
    exact Function.update_of_ne ne _ _
  constructor
  case lists => exact h.lists
  case used =>
    calc s.usedList |>.Perm (s.held ++ s.sent) := h.used
      _ |>.Perm ((i :: s.held.erase i) ++ s.sent) :=
        (List.perm_cons_erase mem).append_right s.sent
      _ |>.Perm (s.held.erase i ++ (i :: s.sent)) := List.perm_middle.symm
  case nofFree => exact h.nofFree
  case peak => exact h.peak
  case counted => exact h.counted
  case loaded =>
    intro j sent
    obtain rfl | sent := List.mem_cons.1 sent
    · simp [TxData.sendData]
    · change (Function.update s.mirror i _ j).nbuf.isSome
      rw [others j sent]
      exact h.loaded j sent
  case bufs =>
    have same : (s.sendData i data).outstanding = s.handed :: s.outstanding := by
      have rest := List.filterMap_congr fun j sent => congrArg DataReq.nbuf (others j sent)
      simpa [outstanding, TxData.sendData, List.filterMap_cons] using rest
    rw [same]
    exact h.bufs.acquire

theorem freeUnconfirmed_eq (l : List Nat) (s : TxData) : freeUnconfirmed l s =
    { s with
      usedList := [], held := [], sent := []
      freed := s.freed ++ l.filterMap fun i => (s.mirror i).nbuf } := by
  induction l generalizing s with
  | nil => simp [freeUnconfirmed]
  | cons i l ih =>
    rw [freeUnconfirmed, ih]
    match nbuf : (s.mirror i).nbuf with
    | none => simp [nbuf]
    | some b => simp [nbuf]

theorem Sound.cleanupDataReqBdr (h : Sound s) (unheld : s.held = []) :
    Sound s.cleanupDataReqBdr := by
  unfold TxData.cleanupDataReqBdr
  split
  case isFalse => exact h
  case isTrue =>
    unfold freeUnconfirmedTxBuffers
    rw [freeUnconfirmed_eq]
    have used := h.used
    rw [unheld, List.nil_append] at used
    constructor
    case lists => exact List.Perm.nil
    case used => exact List.Perm.nil
    case nofFree => exact nofun
    case peak => exact nofun
    case counted => exact nofun
    case loaded => exact nofun
    case bufs =>
      apply h.bufs.release (s.usedList.filterMap fun i => (s.mirror i).nbuf)
      · simpa [outstanding] using (used.filterMap _).symm
      · rw [← List.append_assoc]
        exact List.perm_append_comm

theorem Sound.prepareDataReqBdr (h : Sound s) (gone : s.prepared = false) (nofBds : Nat)
    (allocated : Bool) : Sound (s.prepareDataReqBdr nofBds allocated) := by
  unfold TxData.prepareDataReqBdr
  split
  case isFalse => exact h
  case isTrue =>
    have lists := h.lists
    rw [descriptors, gone] at lists
    have none_used := (List.append_eq_nil_iff.1 lists.eq_nil).2
    have used := h.used
    rw [none_used] at used
    have none_sent := (List.append_eq_nil_iff.1 used.symm.eq_nil).2
    constructor
    case lists => simp [descriptors]
    case used => exact List.Perm.nil
    case nofFree => simp
    case peak => simp
    case counted => simp
    case loaded => exact nofun
    case bufs => simpa [outstanding, passedBufs, none_sent] using h.bufs

end TxData

end Wave300.Mmb.Card
