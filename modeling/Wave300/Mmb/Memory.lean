import Wave300.Mmb.CardFrame

/-!
# The memory of a card

A card owns the mirror array of each ring that is prepared, the buffers that the logger's mirror
points to, and the handler of statistics requests. Each operation on them keeps the account of what
was made: what is not owned was released, once. A mirror that is prepared may be accessed.
-/

namespace Wave300.Mmb.Card

open Lib

variable {fw : Firmware} {o : Outcome} {c c' c'' : Card} {ring : Ring} {extra : List Nat}

theorem Ring.mem_all (ring : Ring) : ring ∈ Ring.all := by
  cases ring <;> decide

theorem Ring.all_nodup : Ring.all.Nodup := by decide

/-- The mirror of a ring, while it is prepared. -/
def owned (c : Card) (ring : Ring) : Option Nat := if c.prepared ring then c.mirror ring else none

def mirrors (c : Card) : List Nat := Ring.all.filterMap c.owned

def logBuffers (fw : Firmware) (c : Card) : List Nat :=
  (List.range (fw.nofBds .logInd)).filterMap c.logBufs

/-- What was made is owned or was released, where `extra` are the handlers that are registered, and
nothing was accessed that is not there. -/
structure Held (fw : Firmware) (extra : List Nat) (c : Card) : Prop where
  account : Accounted c.made (extra ++ (c.logBuffers fw ++ c.mirrors)) c.gone
  current : c.stale = []
  there : ∀ ring, c.prepared ring → (c.mirror ring).isSome
  empty : c.flags .logInd = false → ∀ i < fw.nofBds .logInd, c.logBufs i = none

theorem Held.init : Held fw [] init where
  account := by
    have none : (Card.init.logBuffers fw ++ Card.init.mirrors) = [] := by
      simp [logBuffers, mirrors, owned, prepared, Card.init, Ring.all, TxData.init, RxData.init]
    rw [none]
    exact Accounted.none
  current := rfl
  there := by
    intro ring prepared
    cases ring <;> cases prepared
  empty := fun _ _ _ => rfl

/-- What is held depends on this alone. -/
structure SameMemory (c c' : Card) : Prop where
  prepared : ∀ ring, c'.prepared ring = c.prepared ring
  mirror : c'.mirror = c.mirror
  logBufs : c'.logBufs = c.logBufs
  made : c'.made = c.made
  gone : c'.gone = c.gone
  stale : c'.stale = c.stale

theorem Held.congr (h : Held fw extra c) (same : SameMemory c c') : Held fw extra c' where
  account := by
    have owned : c'.owned = c.owned := by
      funext ring
      simp only [Card.owned, same.prepared, same.mirror]
    rw [same.made, same.gone, logBuffers, mirrors, same.logBufs, owned]
    exact h.account
  current := same.stale.trans h.current
  there := by
    intro ring
    rw [same.prepared, same.mirror]
    exact h.there ring
  empty := by
    have flag : c'.flags .logInd = c.flags .logInd := same.prepared .logInd
    rw [flag, same.logBufs]
    exact h.empty

theorem mirrors_perm (c : Card) (ring : Ring) :
    c.mirrors.Perm ((c.owned ring).toList ++ (Ring.all.erase ring).filterMap c.owned) :=
  filterMap_perm_erase ring.mem_all c.owned

/-- A mirror that is prepared was not released. -/
theorem Held.access (ring : Ring) (h : Held fw extra c) (prepared : c.prepared ring) :
    c.access ring = c := by
  obtain ⟨p, mirror⟩ := Option.isSome_iff_exists.1 (h.there ring prepared)
  have mem : p ∈ c.mirrors := by
    apply List.mem_filterMap.2
    exact ⟨ring, ring.mem_all, by rw [owned, if_pos prepared, mirror]⟩
  have held : p ∉ c.gone :=
    h.account.not_gone (List.mem_append_right _ (List.mem_append_right _ mem))
  unfold Card.access
  rw [if_neg]
  simpa [mirror] using held

theorem Held.access_if {b : Bool} (h : Held fw extra c) (prepared : b = false → c.prepared ring) :
    (if b then c else c.access ring) = c := by
  split
  case isTrue => rfl
  case isFalse unset => exact h.access ring (prepared (by simpa using unset))

/-- A ring is prepared. -/
theorem Held.make (h : Held fw extra c) (unprepared : c.prepared ring = false)
    (prepared : ∀ r, c'.prepared r = if r = ring then true else c.prepared r)
    (mirror : c'.mirror = Function.update c.mirror ring (some c.made))
    (logBufs : c'.logBufs = c.logBufs) (made : c'.made = c.made + 1) (gone : c'.gone = c.gone)
    (stale : c'.stale = c.stale) : Held fw extra c' where
  account := by
    have here : c'.owned ring = some c.made := by simp [owned, prepared, mirror]
    have before : c.owned ring = none := by simp [owned, unprepared]
    have others : (Ring.all.erase ring).filterMap c'.owned =
        (Ring.all.erase ring).filterMap c.owned := by
      apply filterMap_erase_congr Ring.all_nodup
      intro r ne
      simp [owned, prepared, mirror, ne]
    have after := c'.mirrors_perm ring
    rw [here, others] at after
    have was := c.mirrors_perm ring
    rw [before] at was
    rw [made, gone, logBuffers, logBufs]
    apply h.account.acquire.held_perm
    calc extra ++ (c.logBuffers fw ++ c'.mirrors)
        |>.Perm (extra ++ (c.logBuffers fw ++ (c.made :: c.mirrors))) :=
          ((after.trans (was.symm.cons _)).append_left _).append_left _
      _ |>.Perm (extra ++ (c.made :: (c.logBuffers fw ++ c.mirrors))) :=
          List.perm_middle.append_left _
      _ |>.Perm (c.made :: (extra ++ (c.logBuffers fw ++ c.mirrors))) := List.perm_middle
  current := stale.trans h.current
  there := by
    intro r
    rw [prepared, mirror]
    by_cases e : r = ring
    · subst e
      rw [Function.update_self]
      exact fun _ => rfl
    · rw [if_neg e, Function.update_of_ne e]
      exact h.there r
  empty := by
    have flag : c'.flags .logInd = if .logInd = ring then true else c.flags .logInd :=
      prepared .logInd
    rw [flag, logBufs]
    split
    · exact nofun
    · exact h.empty

/-- A ring is released, the logger's one after its buffers. -/
theorem Held.drop (h : Held fw extra c) (was : c.prepared ring)
    (prepared : ∀ r, c'.prepared r = if r = ring then false else c.prepared r)
    (mirror : c'.mirror = c.mirror) (logBufs : c'.logBufs = c.logBufs) (made : c'.made = c.made)
    (gone : c'.gone = (c.mirror ring).toList ++ c.gone) (stale : c'.stale = c.stale)
    (bare : ring = .logInd → ∀ i < fw.nofBds .logInd, c.logBufs i = none) :
    Held fw extra c' where
  account := by
    have here : c'.owned ring = none := by simp [owned, prepared]
    have before : c.owned ring = c.mirror ring := by simp [owned, was]
    have others : (Ring.all.erase ring).filterMap c'.owned =
        (Ring.all.erase ring).filterMap c.owned := by
      apply filterMap_erase_congr Ring.all_nodup
      intro r ne
      simp [owned, prepared, mirror, ne]
    have after := c'.mirrors_perm ring
    rw [here, others] at after
    have had := c.mirrors_perm ring
    rw [before] at had
    rw [made, logBuffers, logBufs]
    apply h.account.release (c.mirror ring).toList _ (.of_eq gone)
    calc extra ++ (c.logBuffers fw ++ c.mirrors)
        |>.Perm (extra ++ (c.logBuffers fw ++ ((c.mirror ring).toList ++ c'.mirrors))) :=
          ((had.trans (after.symm.append_left _)).append_left _).append_left _
      _ |>.Perm (extra ++ ((c.mirror ring).toList ++ (c.logBuffers fw ++ c'.mirrors))) :=
          (List.perm_append_comm_assoc _ _ _).append_left _
      _ |>.Perm ((c.mirror ring).toList ++ (extra ++ (c.logBuffers fw ++ c'.mirrors))) :=
          List.perm_append_comm_assoc _ _ _
  current := stale.trans h.current
  there := by
    intro r
    rw [prepared, mirror]
    split
    · exact nofun
    · exact h.there r
  empty := by
    have flag : c'.flags .logInd = if .logInd = ring then false else c.flags .logInd :=
      prepared .logInd
    rw [flag, logBufs]
    split
    case isTrue e => exact fun _ => bare e.symm
    case isFalse => exact h.empty

/-- The mirror of a ring could not be made. -/
theorem Held.fail (h : Held fw extra c) (unprepared : c.prepared ring = false) :
    Held fw extra (c.allocMirror ring false) where
  account := by
    have owned : (c.allocMirror ring false).owned = c.owned := by
      funext r
      by_cases e : r = ring
      · subst e
        have unprepared' : (c.allocMirror r false).prepared r = false := unprepared
        simp [Card.owned, unprepared, unprepared']
      · have mirror : (c.allocMirror ring false).mirror r = c.mirror r :=
          Function.update_of_ne e _ _
        rw [Card.owned, Card.owned, mirror]
        rfl
    rw [mirrors, owned]
    exact h.account
  current := h.current
  there := by
    intro r prepared
    by_cases e : r = ring
    · subst e
      exact absurd (unprepared.symm.trans prepared) Bool.false_ne_true
    · have mirror : (c.allocMirror ring false).mirror r = c.mirror r :=
        Function.update_of_ne e _ _
      rw [mirror]
      exact h.there r prepared
  empty := h.empty

/-! ## The rings -/

/-- The flag of a ring for messages or of the logger, and all others. -/
theorem prepared_setFlag {b : Bool} (flags : c'.flags = Function.update c.flags ring b)
    (tx : c'.tx = c.tx) (rx : c'.rx = c.rx) (ne : ring ≠ .datReq) (ne' : ring ≠ .datInd)
    (r : Ring) :
    c'.prepared r = if r = ring then b else c.prepared r := by
  by_cases e : r = ring
  · subst e
    rw [if_pos rfl]
    cases r with
    | datReq => exact absurd rfl ne
    | datInd => exact absurd rfl ne'
    | _ => simp [prepared, flags]
  · rw [if_neg e]
    cases r with
    | datReq | datInd => simp [prepared, tx, rx]
    | _ => simp [prepared, flags, e]

theorem Held.prepareBdr (h : Held fw extra c) (unprepared : c.prepared ring = false)
    (ne : ring ≠ .datReq) (ne' : ring ≠ .datInd) (allocated : Bool) :
    Ends (fun c' => Held fw extra c' ∧ c'.flags = Function.update c.flags ring true)
      (fun c' => Held fw extra c' ∧ c'.flags = c.flags) (c.prepareBdr ring allocated) := by
  unfold Card.prepareBdr
  split
  · apply Ends.ok
    apply And.intro _ rfl
    apply h.make unprepared
    case prepared => exact prepared_setFlag rfl rfl rfl ne ne'
    all_goals rfl
  · exact .failed ⟨h.fail unprepared, rfl⟩

theorem Held.cleanupBdr (ring : Ring) (h : Held fw extra c) (ne : ring ≠ .datReq)
    (ne' : ring ≠ .datInd)
    (bare : ring = .logInd → ∀ i < fw.nofBds .logInd, c.logBufs i = none) :
    Held fw extra (c.cleanupBdr ring) ∧
      (c.cleanupBdr ring).flags = Function.update c.flags ring false := by
  unfold Card.cleanupBdr
  split
  case isTrue set =>
    apply And.intro _ rfl
    have was : c.prepared ring := by
      cases ring with
      | datReq => exact absurd rfl ne
      | datInd => exact absurd rfl ne'
      | _ => exact set
    apply h.drop was
    case prepared => exact prepared_setFlag rfl rfl rfl ne ne'
    case bare => exact bare
    all_goals rfl
  case isFalse unset =>
    have same : Function.update c.flags ring false = c.flags :=
      Function.update_eq_self_iff.2 (by simpa using unset)
    exact ⟨h, same.symm⟩

theorem Held.prepareDataReqBdr (h : Held fw extra c) (unprepared : c.tx.prepared = false)
    (allocated : Bool) :
    Ends (fun c' => Held fw extra c' ∧ c'.tx.prepared = true) (Held fw extra)
      (c.prepareDataReqBdr fw allocated) := by
  have gone : c.prepared .datReq = false := unprepared
  unfold Card.prepareDataReqBdr
  split
  · apply Ends.ok
    apply And.intro _ rfl
    apply h.make gone
    case prepared =>
      intro r
      cases r <;> rfl
    all_goals rfl
  · exact .failed (h.fail gone)

theorem Held.prepareDataIndBdr (h : Held fw extra c) (unprepared : c.rx.ring = false)
    (allocated : Bool) :
    Ends (fun c' => Held fw extra c' ∧ c'.rx.ring = true) (Held fw extra)
      (c.prepareDataIndBdr fw allocated) := by
  have gone : c.prepared .datInd = false := unprepared
  unfold Card.prepareDataIndBdr
  split
  · apply Ends.ok
    apply And.intro _ rfl
    apply h.make gone
    case prepared =>
      intro r
      cases r <;> rfl
    all_goals rfl
  · exact .failed (h.fail gone)

theorem Held.cleanupDataReqBdr (h : Held fw extra c) :
    Held fw extra c.cleanupDataReqBdr ∧ c.cleanupDataReqBdr.tx.prepared = false ∧
      Fixed c c.cleanupDataReqBdr ∧ c.cleanupDataReqBdr.rx = c.rx := by
  unfold Card.cleanupDataReqBdr
  split
  case isTrue was =>
    have prepared : c.prepared .datReq := was
    dsimp only
    rw [h.access_if fun _ => prepared]
    have gone : c.tx.cleanupDataReqBdr.prepared = false := by
      rw [TxData.cleanupDataReqBdr, if_pos was]
    refine ⟨?_, gone, ⟨rfl, rfl⟩, rfl⟩
    apply h.drop prepared
    case prepared =>
      intro r
      cases r with
      | datReq => exact gone
      | _ => rfl
    case bare => exact nofun
    all_goals rfl
  case isFalse unset => exact ⟨h, by simpa using unset, ⟨rfl, rfl⟩, rfl⟩

theorem Held.cleanupDataIndBdr (h : Held fw extra c) :
    Held fw extra c.cleanupDataIndBdr ∧ c.cleanupDataIndBdr.rx.ring = false ∧
      Fixed c c.cleanupDataIndBdr ∧ c.cleanupDataIndBdr.tx = c.tx := by
  unfold Card.cleanupDataIndBdr
  split
  case isTrue was =>
    refine ⟨?_, rfl, ⟨rfl, rfl⟩, rfl⟩
    have prepared : c.prepared .datInd := was
    apply h.drop prepared
    case prepared =>
      intro r
      cases r <;> rfl
    case bare => exact nofun
    all_goals rfl
  case isFalse unset => exact ⟨h, by simpa using unset, ⟨rfl, rfl⟩, rfl⟩

/-- The slots change, and not whether their ring is prepared. -/
theorem Held.setRx (rx : RxData) (h : Held fw extra c) (ring : rx.ring = c.rx.ring) :
    Held fw extra { c with rx } := by
  apply h.congr
  constructor
  case prepared =>
    intro r
    cases r with
    | datInd => exact ring
    | _ => rfl
  all_goals rfl

/-- The pool changes, and not whether its ring is prepared. -/
theorem Held.setTx (tx : TxData) (h : Held fw extra c) (prepared : tx.prepared = c.tx.prepared) :
    Held fw extra { c with tx } := by
  apply h.congr
  constructor
  case prepared =>
    intro r
    cases r with
    | datReq => exact prepared
    | _ => rfl
  all_goals rfl

/-- The pending slots are forgotten. -/
theorem Held.emptyPendingRxBuffers (h : Held fw extra c) (ring : c.rx.lbufs ≠ [] → c.rx.ring) :
    c.emptyPendingRxBuffers = { c with rx := c.rx.emptyPendingRxBuffers } := by
  unfold Card.emptyPendingRxBuffers
  dsimp only
  rw [h.access_if]
  intro pending
  exact ring (List.isEmpty_eq_false_iff.1 pending)

theorem Held.freePreallocatedRxBuffers (h : Held fw extra c) (ring : c.rx.buffers → c.rx.ring) :
    c.freePreallocatedRxBuffers = { c with rx := c.rx.freePreallocatedRxBuffers } := by
  unfold Card.freePreallocatedRxBuffers
  dsimp only
  split
  case isTrue prepared => rw [h.access .datInd (ring prepared)]
  case isFalse => rfl

/-! ## The logger -/

theorem logBuffers_perm (c : Card) {i : Nat} (lt : i < fw.nofBds .logInd) : (c.logBuffers fw).Perm
    ((c.logBufs i).toList ++ ((List.range (fw.nofBds .logInd)).erase i).filterMap c.logBufs) :=
  filterMap_perm_erase (List.mem_range.2 lt) c.logBufs

/-- One buffer of the logger changes. -/
theorem logBuffers_update (c c' : Card) {i : Nat} {p : Option Nat}
    (bufs : c'.logBufs = Function.update c.logBufs i p) (lt : i < fw.nofBds .logInd) :
    (c'.logBuffers fw).Perm
      (p.toList ++ ((List.range (fw.nofBds .logInd)).erase i).filterMap c.logBufs) := by
  have others : ((List.range (fw.nofBds .logInd)).erase i).filterMap c'.logBufs =
      ((List.range (fw.nofBds .logInd)).erase i).filterMap c.logBufs := by
    apply filterMap_erase_congr List.nodup_range
    intro j ne
    rw [bufs, Function.update_of_ne ne]
  have after := c'.logBuffers_perm lt
  rwa [others, bufs, Function.update_self] at after

/-- A buffer of the logger is released. -/
theorem Held.freeBuffer {i p : Nat} (h : Held fw extra c) (set : c.flags .logInd)
    (lt : i < fw.nofBds .logInd) (buf : c.logBufs i = some p) :
    Held fw extra { c.free (some p) with logBufs := Function.update c.logBufs i none } where
  account := by
    have had := c.logBuffers_perm lt
    rw [buf] at had
    have after := c.logBuffers_update
      { c.free (some p) with logBufs := Function.update c.logBufs i none } rfl lt
    apply h.account.release [p] _ (.refl _)
    exact ((had.trans (after.symm.cons p)).append_right _).append_left _ |>.trans List.perm_middle
  current := h.current
  there := h.there
  empty := fun unset => absurd (unset.symm.trans set) Bool.false_ne_true

/-- A buffer of the logger is made. -/
theorem Held.makeBuffer {i : Nat} (h : Held fw extra c) (set : c.flags .logInd)
    (lt : i < fw.nofBds .logInd) (buf : c.logBufs i = none) :
    Held fw extra { c with
      logBufs := Function.update c.logBufs i (some c.made), made := c.made + 1 } where
  account := by
    have had := c.logBuffers_perm lt
    rw [buf] at had
    have after := c.logBuffers_update { c with
      logBufs := Function.update c.logBufs i (some c.made), made := c.made + 1 } rfl lt
    apply h.account.acquire.held_perm
    exact ((after.trans (had.symm.cons c.made)).append_right _).append_left _ |>.trans
      List.perm_middle
  current := h.current
  there := h.there
  empty := fun unset => absurd (unset.symm.trans set) Bool.false_ne_true

/-- The loop of `_mtlk_mmb_cleanup_fw_logger` releases the buffers it comes to. -/
theorem Held.freeLogBufs (left i : Nat) (h : Held fw extra c) (set : c.flags .logInd)
    (le : i + left ≤ fw.nofBds .logInd) :
    Held fw extra (freeLogBufs left i c) ∧ (freeLogBufs left i c).flags = c.flags ∧
      ∀ j, (j < i → c.logBufs j = none) → j < i + left →
        (freeLogBufs left i c).logBufs j = none := by
  induction left generalizing i c with
  | zero => exact ⟨h, rfl, fun j before lt => before lt⟩
  | succ left ih =>
    unfold Card.freeLogBufs
    dsimp only
    rw [h.access .logInd set]
    split
    case h_1 buf =>
      obtain ⟨held, flags, empty⟩ := ih (i + 1) h set (by omega)
      refine ⟨held, flags, fun j before lt => empty j ?_ (by omega)⟩
      intro le
      obtain lt | rfl := Nat.lt_or_eq_of_le (Nat.le_of_lt_succ le)
      · exact before lt
      · exact buf
    case h_2 p buf =>
      obtain ⟨held, flags, empty⟩ := ih (i + 1) (h.freeBuffer set (by omega) buf) set (by omega)
      refine ⟨held, flags, fun j before lt => empty j ?_ (by omega)⟩
      intro le
      dsimp only
      obtain lt | rfl := Nat.lt_or_eq_of_le (Nat.le_of_lt_succ le)
      · rw [Function.update_of_ne (Nat.ne_of_lt lt)]
        exact before lt
      · exact Function.update_self _ _ _

theorem Held.cleanupFwLogger (h : Held fw extra c) (set : c.flags .logInd) :
    Held fw extra (c.cleanupFwLogger fw) ∧
      (c.cleanupFwLogger fw).flags = Function.update c.flags .logInd false := by
  obtain ⟨held, flags, empty⟩ := h.freeLogBufs (fw.nofBds .logInd) 0 set (by omega)
  have bare : ∀ i < fw.nofBds .logInd,
      (Card.freeLogBufs (fw.nofBds .logInd) 0 c).logBufs i = none :=
    fun i lt => empty i (fun before => absurd before (Nat.not_lt_zero i)) (by omega)
  have cleaned := held.cleanupBdr .logInd nofun nofun fun _ => bare
  exact ⟨cleaned.1, cleaned.2.trans (by rw [flags])⟩

/-- Which descriptors of the logger have a buffer, as far as `init` had them. -/
theorem Held.allocFwLoggerBuffers (alloc : Nat → Bool) (count i : Nat) (h : Held fw extra c)
    (set : c.flags .logInd) (le : i + count ≤ fw.nofBds .logInd)
    (empty : ∀ j, i ≤ j → c.logBufs j = none) :
    Ends (fun c' => Held fw extra c' ∧ c'.flags = c.flags ∧
        ∀ j, (c'.logBufs j).isSome = ((c.logBufs j).isSome || decide (i ≤ j ∧ j < i + count)))
      (fun c' => Held fw extra c' ∧ c'.flags = c.flags ∧
        ∀ j, i + count ≤ j → c'.logBufs j = none)
      (allocFwLoggerBuffers alloc count i c) := by
  induction count generalizing i c with
  | zero =>
    apply Ends.ok
    refine ⟨h, rfl, fun j => ?_⟩
    simp
  | succ count ih =>
    unfold Card.allocFwLoggerBuffers
    dsimp only
    rw [h.access .logInd set]
    split
    case isTrue =>
      have made := h.makeBuffer set (by omega) (empty i (Nat.le_refl i))
      apply (ih (i + 1) made set (by omega) _).mono
      · rintro c' ⟨held, flags, bufs⟩
        refine ⟨held, flags, fun j => ?_⟩
        rw [bufs]
        dsimp only
        by_cases e : j = i
        · subst e
          rw [Function.update_self]
          simp
        · rw [Function.update_of_ne e]
          congr 1
          apply decide_eq_decide.2
          omega
      · rintro c' ⟨held, flags, bufs⟩
        exact ⟨held, flags, fun j le => bufs j (by omega)⟩
      · intro j le
        dsimp only
        rw [Function.update_of_ne (by omega)]
        exact empty j (by omega)
    case isFalse => exact .failed ⟨h, rfl, fun j le => empty j (by omega)⟩

/-- The descriptors of the logger that get a buffer. -/
def Firmware.hasLogBuf (fw : Firmware) (i : Nat) : Bool :=
  match fw.logBufInfo with
  | none => i < fw.nofBds .logInd
  | some info => (i < info.nofBdrLm && info.bufsizeLm ≠ 0) ||
      (info.nofBdrLm ≤ i && i < info.nofBdrLm + info.nofBdrUm && info.bufsizeUm ≠ 0)

theorem Held.allocIfAny (alloc : Nat → Bool) (start count bufsize : Nat) (h : Held fw extra c)
    (set : c.flags .logInd) (le : start + count ≤ fw.nofBds .logInd)
    (empty : ∀ j, start ≤ j → c.logBufs j = none) :
    Ends (fun c' => Held fw extra c' ∧ c'.flags = c.flags ∧
        ∀ j, (c'.logBufs j).isSome = ((c.logBufs j).isSome ||
          (decide (start ≤ j ∧ j < start + count) && decide (bufsize ≠ 0))))
      (fun c' => Held fw extra c' ∧ c'.flags = c.flags ∧
        ∀ j, start + count ≤ j → c'.logBufs j = none)
      (allocIfAny alloc start count bufsize c) := by
  unfold Card.allocIfAny
  split
  case isTrue any =>
    apply (h.allocFwLoggerBuffers alloc count start set le empty).mono _ fun _ h => h
    rintro c' ⟨held, flags, bufs⟩
    exact ⟨held, flags, fun j => by simp [bufs, any.2]⟩
  case isFalse none =>
    apply Ends.ok
    refine ⟨h, rfl, fun j => ?_⟩
    by_cases size : bufsize = 0
    · simp [size]
    · have count : count = 0 := by simpa [size] using none
      simp [count]

theorem Held.allocLogBufs (h : Held fw extra c) (set : c.flags .logInd)
    (agree : fw.badLogInfo = false) (empty : ∀ j, c.logBufs j = none) :
    Ends (fun c' => Held fw extra c' ∧ c'.flags = c.flags ∧
        ∀ j, (c'.logBufs j).isSome = fw.hasLogBuf j)
      (fun c' => Held fw extra c' ∧ c'.flags = c.flags) (c.allocLogBufs fw o) := by
  cases known : fw.logBufInfo with
  | none =>
    have all := h.allocFwLoggerBuffers o.logAlloc (fw.nofBds .logInd) 0 set (by omega)
      fun j _ => empty j
    simp only [Card.allocLogBufs, Firmware.hasLogBuf, known]
    apply all.mono
    · rintro c' ⟨held, flags, bufs⟩
      exact ⟨held, flags, fun j => by simp [bufs, empty]⟩
    · exact fun c' failed => ⟨failed.1, failed.2.1⟩
  | some info =>
    simp only [Firmware.badLogInfo, known, ne_eq, decide_not, Bool.not_eq_false',
      decide_eq_true_eq] at agree
    have lm := h.allocIfAny o.logAlloc 0 info.nofBdrLm info.bufsizeLm set (by omega)
      fun j _ => empty j
    -- the buffers of the second CPU are made even if there are not enough for the first
    have first : Ends (fun c' => Held fw extra c' ∧ c'.flags = c.flags ∧
        ∀ j, info.nofBdrLm ≤ j → c'.logBufs j = none)
        (fun c' => Held fw extra c' ∧ c'.flags = c.flags ∧
          ∀ j, info.nofBdrLm ≤ j → c'.logBufs j = none)
        (c.allocIfAny o.logAlloc 0 info.nofBdrLm info.bufsizeLm) := by
      apply lm.mono
      · rintro c' ⟨held, flags, bufs⟩
        refine ⟨held, flags, fun j le => ?_⟩
        have none := bufs j
        simpa [empty, Nat.not_lt.2 le] using none
      · rintro c' ⟨held, flags, bufs⟩
        exact ⟨held, flags, fun j le => bufs j (by omega)⟩
    obtain ⟨held, flags, rest⟩ := first.either
    have um := held.allocIfAny o.logAlloc info.nofBdrLm info.nofBdrUm info.bufsizeUm
      (flags ▸ set) (by omega) rest
    have both : Ends (fun c' => Held fw extra c' ∧ c'.flags = c.flags)
        (fun c' => Held fw extra c' ∧ c'.flags = c.flags) (Card.allocIfAny o.logAlloc info.nofBdrLm
          info.nofBdrUm info.bufsizeUm
            (c.allocIfAny o.logAlloc 0 info.nofBdrLm info.bufsizeLm).1) :=
      um.mono (fun c' h => ⟨h.1, h.2.1.trans flags⟩) (fun c' h => ⟨h.1, h.2.1.trans flags⟩)
    have kept := both.either
    simp only [Card.allocLogBufs, Firmware.hasLogBuf, known]
    apply And.intro _ fun _ => kept
    intro ok
    obtain ⟨lmOk, umOk⟩ := Bool.and_eq_true_iff.1 ok
    refine ⟨kept.1, kept.2, fun j => ?_⟩
    rw [(um.1 umOk).2.2 j, (lm.1 lmOk).2.2 j, empty]
    simp [Bool.and_assoc]

theorem prepareBdr_logBufs (c : Card) (ring : Ring) (allocated : Bool) :
    (c.prepareBdr ring allocated).1.logBufs = c.logBufs := by
  unfold Card.prepareBdr
  split <;> rfl

/-- The mirror of the logger is cleared, when it had no buffers. -/
theorem Held.clear (h : Held fw extra c) (set : c.flags .logInd)
    (none : ∀ i < fw.nofBds .logInd, c.logBufs i = none) :
    Held fw extra { c with logBufs := fun _ => Option.none } where
  account := by
    have empty : c.logBuffers fw = [] := by
      apply List.filterMap_eq_nil_iff.2
      intro i mem
      exact none i (List.mem_range.1 mem)
    have cleared : Card.logBuffers fw { c with logBufs := fun _ => Option.none } = [] :=
      List.filterMap_none _
    have account := h.account
    rw [empty] at account
    rw [cleared]
    exact account
  current := h.current
  there := h.there
  empty := fun unset => absurd (unset.symm.trans set) Bool.false_ne_true

/-- `_mtlk_mmb_init_fw_logger`. When it fails for want of memory nothing of the logger is left. -/
theorem Held.initFwLogger (h : Held fw extra c) (unset : c.flags .logInd = false) :
    Ends (fun c' => Held fw extra c' ∧ c'.flags = Function.update c.flags .logInd true ∧
        ∀ j, (c'.logBufs j).isSome = fw.hasLogBuf j)
      (fun c' => Held fw extra c' ∧ ∃ b, c'.flags = Function.update c.flags .logInd b)
      (c.initFwLogger fw o) := by
  have prepare := h.prepareBdr (show c.prepared .logInd = false from unset) nofun nofun o.logRing
  have same : c.flags = Function.update c.flags .logInd false := by
    rw [Function.update_eq_self_iff.2 unset.symm]
  unfold Card.initFwLogger
  dsimp only
  split
  case isTrue failed =>
    obtain ⟨held, flags⟩ := prepare.2 (by simpa using failed)
    exact .failed ⟨held, false, flags.trans same⟩
  case isFalse made =>
    obtain ⟨held, flags⟩ := prepare.1 (by simpa using made)
    have set : (c.prepareBdr .logInd o.logRing).1.flags .logInd = true := by
      rw [flags, Function.update_self]
    have cleared : Held fw extra { (c.prepareBdr .logInd o.logRing).1 with
        logBufs := fun _ => none } := by
      apply held.clear set
      rw [prepareBdr_logBufs]
      exact h.empty unset
    split
    case isTrue => exact .failed ⟨cleared, true, flags⟩
    case isFalse agree =>
      have alloc := cleared.allocLogBufs (o := o) set (by simpa using agree) fun _ => rfl
      split
      case isTrue ok =>
        obtain ⟨held, flags', bufs⟩ := alloc.1 ok
        have set' := (congrFun flags' Ring.logInd).trans set
        rw [held.access .logInd set']
        exact .ok ⟨held, flags'.trans flags, bufs⟩
      case isFalse failed =>
        obtain ⟨held, flags'⟩ := alloc.2 (by simpa using failed)
        have set' := (congrFun flags' Ring.logInd).trans set
        obtain ⟨cleaned, flags''⟩ := held.cleanupFwLogger set'
        refine .failed ⟨cleaned, false, ?_⟩
        rw [flags'', flags']
        exact (congrArg (Function.update · _ _) flags).trans (Function.update_idem _ _ _)

theorem allocFwLoggerBuffers_ok {alloc : Nat → Bool} (count i : Nat)
    (all : ∀ j, j < i + count → alloc j) : (allocFwLoggerBuffers alloc count i c).2 = true := by
  induction count generalizing i c with
  | zero => rfl
  | succ count ih =>
    unfold allocFwLoggerBuffers
    dsimp only
    rw [if_pos (all i (by omega))]
    exact ih (i + 1) fun j lt => all j (by omega)

theorem allocIfAny_ok {alloc : Nat → Bool} (start count bufsize : Nat)
    (all : ∀ j, j < start + count → alloc j) :
    (allocIfAny alloc start count bufsize c).2 = true := by
  unfold allocIfAny
  split
  · exact allocFwLoggerBuffers_ok count start all
  · rfl

/-- The logger gets its mirror and all its buffers. -/
def Outcome.logs (fw : Firmware) (o : Outcome) : Prop :=
  o.logRing ∧ ∀ i < fw.nofBds .logInd, o.logAlloc i

instance (fw : Firmware) (o : Outcome) : Decidable (o.logs fw) :=
  inferInstanceAs (Decidable (_ ∧ _))

theorem allocLogBufs_ok (enough : o.logs fw) (agree : fw.badLogInfo = false) :
    (c.allocLogBufs fw o).2 = true := by
  cases known : fw.logBufInfo with
  | none =>
    simp only [allocLogBufs, known]
    exact allocFwLoggerBuffers_ok _ 0 fun j lt => enough.2 j (by omega)
  | some info =>
    simp only [Firmware.badLogInfo, known, ne_eq, decide_not, Bool.not_eq_false',
      decide_eq_true_eq] at agree
    simp only [allocLogBufs, known, Bool.and_eq_true]
    constructor
    · exact allocIfAny_ok _ _ _ fun j lt => enough.2 j (by omega)
    · exact allocIfAny_ok _ _ _ fun j lt => enough.2 j (by omega)

/-- With enough memory the mirror of the logger is there afterwards. -/
theorem initFwLogger_logs (enough : o.logs fw) :
    (c.initFwLogger fw o).1.flags .logInd = true := by
  cases agree : fw.badLogInfo with
  | true =>
    unfold Card.initFwLogger
    simp [agree, prepareBdr, enough.1, setFlag]
  | false =>
    apply initFwLogger_flag
    unfold Card.initFwLogger
    simp [agree, prepareBdr, enough.1, allocLogBufs_ok enough agree]

end Wave300.Mmb.Card
