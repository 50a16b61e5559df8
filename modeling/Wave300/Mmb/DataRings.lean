import Wave300.Mmb.CardFrame
import Wave300.Mmb.RxSound

/-!
# The data rings over the life of a card

The start and the restoration treat the data rings alike: the pool of TX descriptors is made, and
then the RX slots. What fails before leaves them torn down, and what fails after leaves them
whole. With what single operations keep, this holds of every state a card reaches.
-/

namespace Wave300.Mmb.Card

open Lib

variable {fw : Firmware} {o : Outcome} {c c' : Card} {step : Step}

/-- The data rings of a started card, between two operations. -/
structure Live (c : Card) : Prop where
  tx : c.tx.Sound
  rx : c.rx.Sound
  slots : c.rx.buffers ∨ c.rx.Torn
  timer : c.timer → c.rx.buffers

/-- The data rings were torn down. -/
structure Bare (c : Card) : Prop where
  tx : c.tx.Sound
  rx : c.rx.Sound
  pool : c.tx.prepared = false
  slots : c.rx.Torn
  timer : c.timer = false

/-- The data rings were made. -/
structure Whole (c : Card) : Prop where
  tx : c.tx.Sound
  rx : c.rx.Sound
  slots : c.rx.buffers

theorem Whole.live (h : Whole c) : Live c := ⟨h.tx, h.rx, .inl h.slots, fun _ => h.slots⟩

theorem Bare.live (h : Bare c) : Live c where
  tx := h.tx
  rx := h.rx
  slots := .inr h.slots
  timer := fun set => absurd (h.timer.symm.trans set) Bool.false_ne_true

theorem Bare.congr (h : Bare c) (same : SameData c c') : Bare c' where
  tx := same.tx ▸ h.tx
  rx := same.rx ▸ h.rx
  pool := same.tx ▸ h.pool
  slots := same.rx ▸ h.slots
  timer := same.timer.trans h.timer

theorem Whole.congr (h : Whole c) (tx : c'.tx = c.tx) (rx : c'.rx = c.rx) : Whole c' where
  tx := tx ▸ h.tx
  rx := rx ▸ h.rx
  slots := rx ▸ h.slots

theorem Live.congr (h : Live c) (same : SameData c c') : Live c' where
  tx := same.tx ▸ h.tx
  rx := same.rx ▸ h.rx
  slots := same.rx ▸ h.slots
  timer := by
    rw [same.timer, same.rx]
    exact h.timer

/-- The pool was made, and the slots were not. -/
structure Pooled (c : Card) : Prop where
  tx : c.tx.Sound
  rx : c.rx.Sound
  slots : c.rx.Torn
  timer : c.timer = false

theorem Pooled.live (h : Pooled c) : Live c where
  tx := h.tx
  rx := h.rx
  slots := .inr h.slots
  timer := fun set => absurd (h.timer.symm.trans set) Bool.false_ne_true

/-- The pool was made, and `rx` is what the slots have become by now. -/
def Pooled.With (rx : RxData → RxData) (c : Card) : Prop :=
  c.tx.Sound ∧ ∃ r : RxData, r.Sound ∧ r.Torn ∧ c.rx = rx r

theorem Pooled.With.congr {rx : RxData → RxData} (same : SameData c c') (h : Pooled.With rx c) :
    Pooled.With rx c' := by
  unfold With
  rw [same.tx, same.rx]
  exact h

section Made
variable {act : Card → Step → Card × Bool}
  (data : ∀ c step, step.isData = true → SameData (c.perform fw o step).1 (act c step).1 ∧
    (act c step).2 = (c.perform fw o step).2)
include data

/-- What a step does follows from what it does to the data rings. -/
theorem ends_of_perform {Q F : Card → Prop} (isData : step.isData = true)
    (h : Ends Q F (c.perform fw o step)) (congr : ∀ c c', SameData c c' → Q c → Q c')
    (congr' : ∀ c c', SameData c c' → F c → F c') : Ends Q F (act c step) := by
  obtain ⟨same, ok⟩ := data c step isData
  constructor
  · intro success
    exact congr _ _ same (h.1 (ok.symm.trans success))
  · intro failure
    exact congr' _ _ same (h.2 (ok.symm.trans failure))

theorem datReqBdr_ends (h : Bare c) : Ends Pooled Live (act c .datReqBdr) := by
  apply ends_of_perform data rfl
  · unfold perform prepareDataReqBdr
    dsimp only
    split
    · exact .ok ⟨h.tx.prepareDataReqBdr h.pool _ true, h.rx, h.slots, h.timer⟩
    · exact .failed (h.live.congr ⟨rfl, rfl, rfl⟩)
  · intro c c' same h
    exact ⟨same.tx ▸ h.tx, same.rx ▸ h.rx, same.rx ▸ h.slots, same.timer.trans h.timer⟩
  · exact fun _ _ same h => h.congr same

theorem datIndBdr_ends (h : Pooled c) :
    Ends (Pooled.With fun r => r.prepareDataIndBdr (fw.nofBds .datInd) true) Live
      (act c .datIndBdr) := by
  apply ends_of_perform data rfl
  · unfold perform prepareDataIndBdr
    dsimp only
    split
    · exact .ok ⟨h.tx, c.rx, h.rx, h.slots, rfl⟩
    · exact .failed (h.live.congr ⟨rfl, rfl, rfl⟩)
  · exact fun _ _ same h => Pooled.With.congr same h
  · exact fun _ _ same h => h.congr same

theorem rxQueues_ends {rx : RxData → RxData} (h : Pooled.With rx c) :
    Ends (Pooled.With fun r => (rx r).rxqueSetDefaultCfg.1) Live (act c .rxQueues) := by
  apply ends_of_perform data rfl
  · obtain ⟨tx, r, sound, torn, e⟩ := h
    constructor
    · intro _
      exact ⟨tx, r, sound, torn, congrArg (fun r => r.rxqueSetDefaultCfg.1) e⟩
    · intro failed
      have done := RxData.rxqueSetDefaultCfg_ok c.rx
      exact absurd (done.symm.trans failed) Bool.true_eq_false_eq_False
  · exact fun _ _ same h => Pooled.With.congr same h
  · exact fun _ _ same h => h.congr same

theorem rxBuffers_ends (h : Pooled.With (fun r =>
    (r.prepareDataIndBdr (fw.nofBds .datInd) true).rxqueSetDefaultCfg.1) c) :
    Ends Whole Live (act c .rxBuffers) := by
  apply ends_of_perform data rfl
  · obtain ⟨tx, r, sound, torn, e⟩ := h
    have same := c.access_frame .datInd
    apply Ends.ok
    constructor
    case tx => exact same.tx ▸ tx
    case rx =>
      dsimp only
      rw [same.rx, e]
      exact sound.rebuild torn _ _
    case slots => rfl
  · exact fun _ _ same h => h.congr same.tx same.rx
  · exact fun _ _ same h => h.congr same

/-- A step after the data rings were made. -/
theorem whole_step (other : ∀ c step, step.isData = false → SameData c (act c step).1)
    (late : step.isData = false ∨ step = .rxPendTimer) (h : Whole c) :
    Ends Whole Live (act c step) := by
  have whole : Whole (act c step).1 := by
    obtain aside | rfl := late
    · have same := other c step aside
      exact h.congr same.tx same.rx
    · have same := (data c .rxPendTimer rfl).1
      have timer : (c.perform fw o .rxPendTimer).1.tx = c.tx ∧
          (c.perform fw o .rxPendTimer).1.rx = c.rx := by
        unfold perform
        dsimp only
        split <;> exact ⟨rfl, rfl⟩
      exact h.congr (same.tx.trans timer.1) (same.rx.trans timer.2)
  exact ⟨fun _ => whole, fun _ => whole.live⟩

/-- The data rings are made, with other steps before and after. -/
theorem stages_live {l l' : List Step}
    (other : ∀ c step, step.isData = false → SameData c (act c step).1)
    (before : ∀ step ∈ l, step.isData = false)
    (after : ∀ step ∈ l', step.isData = false ∨ step = .rxPendTimer) (h : Bare c) :
    Ends Whole Live
      (stages act (l ++ .datReqBdr :: .datIndBdr :: .rxQueues :: .rxBuffers :: l') c) := by
  have bare : Ends Bare Live (stages act l c) := by
    apply Ends.stages_keep _ h
    intro step mem c h
    have same := h.congr (other c step (before step mem))
    exact ⟨fun _ => same, fun _ => same.live⟩
  apply Ends.stages_append bare
  intro c h
  apply Ends.stages_cons (datReqBdr_ends data h)
  intro c h
  apply Ends.stages_cons (datIndBdr_ends data h)
  intro c h
  apply Ends.stages_cons (rxQueues_ends data h)
  intro c h
  apply Ends.stages_cons (rxBuffers_ends data h)
  intro c h
  apply Ends.stages_keep _ h
  intro step mem c h
  exact whole_step data other (after step mem) h

end Made

theorem start_live (h : Bare c) : Ends Whole Live (stages (performStart fw o) startOrder c) := by
  have data : ∀ (c : Card) (step : Step), step.isData = true →
      SameData (c.perform fw o step).1 (c.performStart fw o step).1 ∧
        (c.performStart fw o step).2 = (c.perform fw o step).2 :=
    fun c step _ => ⟨c.performStart_sameData fw o step, c.performStart_ok fw o step⟩
  apply stages_live data
    (l := [.loadFirmware, .waitChiMagic, .manReqBdr, .manIndBdr, .dbgReqBdr, .dbgIndBdr])
  case other => exact fun _ _ aside => performStart_frame aside
  case before => decide
  case after => decide
  case h => exact h

theorem restore_live (h : Bare c) :
    Ends Whole Live (stages (performRestore fw o) restoreOrder c) := by
  have data : ∀ (c : Card) (step : Step), step.isData = true →
      SameData (c.perform fw o step).1 (c.performRestore fw o step).1 ∧
        (c.performRestore fw o step).2 = (c.perform fw o step).2 := by
    intro c step isData
    rw [performRestore_data isData]
    exact ⟨⟨rfl, rfl, rfl⟩, rfl⟩
  apply stages_live data (l := [.manReqBdr, .manIndBdr, .dbgReqBdr, .dbgIndBdr])
  case other => exact fun _ _ aside => (performRestore_frame aside).sameData
  case before => decide
  case after => decide
  case h => exact h

/-! ## The tear-down -/

theorem cleanupDataReqBdr_data (c : Card) : c.cleanupDataReqBdr.tx = c.tx.cleanupDataReqBdr ∧
    c.cleanupDataReqBdr.rx = c.rx ∧ c.cleanupDataReqBdr.timer = c.timer := by
  unfold cleanupDataReqBdr
  split
  case isTrue =>
    have same := c.access_if_frame c.tx.usedList.isEmpty .datReq
    exact ⟨congrArg TxData.cleanupDataReqBdr same.tx, same.rx, same.timer⟩
  case isFalse unprepared =>
    unfold TxData.cleanupDataReqBdr
    rw [if_neg unprepared]
    exact ⟨rfl, rfl, rfl⟩

theorem cleanupDataIndBdr_data (c : Card) : c.cleanupDataIndBdr.tx = c.tx ∧
    c.cleanupDataIndBdr.rx = c.rx.cleanupDataIndBdr ∧ c.cleanupDataIndBdr.timer = c.timer := by
  unfold cleanupDataIndBdr
  split
  case isTrue => exact ⟨rfl, rfl, rfl⟩
  case isFalse unprepared =>
    have gone : c.rx.ring = false := by simpa using unprepared
    have same : c.rx.cleanupDataIndBdr = c.rx := by rw [RxData.cleanupDataIndBdr, ← gone]
    exact ⟨rfl, same.symm, rfl⟩

theorem freePreallocatedRxBuffers_data (c : Card) : c.freePreallocatedRxBuffers.tx = c.tx ∧
    c.freePreallocatedRxBuffers.rx = c.rx.freePreallocatedRxBuffers ∧
      c.freePreallocatedRxBuffers.timer = c.timer := by
  unfold freePreallocatedRxBuffers
  dsimp only
  split
  · have same := c.access_frame .datInd
    exact ⟨same.tx, congrArg RxData.freePreallocatedRxBuffers same.rx, same.timer⟩
  · exact ⟨rfl, rfl, rfl⟩

theorem emptyPendingRxBuffers_data (c : Card) : c.emptyPendingRxBuffers.tx = c.tx ∧
    c.emptyPendingRxBuffers.rx = c.rx.emptyPendingRxBuffers ∧
      c.emptyPendingRxBuffers.timer = c.timer := by
  have same := c.access_if_frame c.rx.lbufs.isEmpty .datInd
  exact ⟨same.tx, congrArg RxData.emptyPendingRxBuffers same.rx, same.timer⟩

theorem cleanupDataReqBdr_unprepared (t : TxData) : t.cleanupDataReqBdr.prepared = false := by
  unfold TxData.cleanupDataReqBdr
  split
  case isTrue => rfl
  case isFalse unprepared => simpa using unprepared

theorem RxData.Sound.cleanupDataIndBdr {r : RxData} (h : r.Sound) : r.cleanupDataIndBdr.Sound :=
  ⟨h.total, h.nodup, h.lt, h.sizes, h.slots, h.pending, h.carrying, h.asserted, h.bufs⟩

/-- The tear-down of a restoration. -/
theorem tearDown_bare (h : Live c) (unheld : c.tx.held = []) (unset : c.timer = false) :
    Bare c.tearDown := by
  have emptied := c.emptyPendingRxBuffers_data
  have freed := c.emptyPendingRxBuffers.freePreallocatedRxBuffers_data
  obtain ⟨rx, torn⟩ := h.rx.tearDown h.slots
  have control : ∀ c, Frame c
      ((((cleanupBdr c .manReq).cleanupBdr .manInd).cleanupBdr .dbgReq).cleanupBdr .dbgInd) := by
    intro c
    exact (((cleanupBdr_frame c _).trans (cleanupBdr_frame _ _)).trans
      (cleanupBdr_frame _ _)).trans (cleanupBdr_frame _ _)
  have same := control c.emptyPendingRxBuffers.freePreallocatedRxBuffers
  have pool := cleanupDataReqBdr_data ((((cleanupBdr
    c.emptyPendingRxBuffers.freePreallocatedRxBuffers .manReq).cleanupBdr .manInd).cleanupBdr
    .dbgReq).cleanupBdr .dbgInd)
  have slots := cleanupDataIndBdr_data ((((cleanupBdr
    c.emptyPendingRxBuffers.freePreallocatedRxBuffers .manReq).cleanupBdr .manInd).cleanupBdr
    .dbgReq).cleanupBdr .dbgInd).cleanupDataReqBdr
  have tx_eq : c.tearDown.tx = c.tx.cleanupDataReqBdr := by
    rw [tearDown, slots.1, pool.1, same.tx, freed.1, emptied.1]
  have rx_eq : c.tearDown.rx =
      c.rx.emptyPendingRxBuffers.freePreallocatedRxBuffers.cleanupDataIndBdr := by
    rw [tearDown, slots.2.1, pool.2.1, same.rx, freed.2.1, emptied.2.1]
  have timer_eq : c.tearDown.timer = c.timer := by
    rw [tearDown, slots.2.2, pool.2.2, same.timer, freed.2.2, emptied.2.2]
  constructor
  case tx => exact tx_eq ▸ h.tx.cleanupDataReqBdr unheld
  case rx => exact rx_eq ▸ rx.cleanupDataIndBdr
  case pool => exact tx_eq ▸ cleanupDataReqBdr_unprepared c.tx
  case slots => exact rx_eq ▸ ⟨torn.buffers, torn.lbufs⟩
  case timer => exact timer_eq.trans unset

/-- What stopping the card does to the pool. -/
theorem stopCard_tx (fw : Firmware) (c : Card) : (c.stopCard fw).tx =
    if c.started .datReqBdr then c.tx.cleanupDataReqBdr else c.tx := by
  have handler := fun c : Card => (unregisterRequestHandler_frame c).tx
  have logger := fun c : Card => (cleanupFwLogger_frame fw c).tx
  have control := fun (c : Card) ring => (cleanupBdr_frame c ring).tx
  have buffers := fun c : Card => (freePreallocatedRxBuffers_data c).1
  have slots := fun c : Card => (cleanupDataIndBdr_data c).1
  have pool := fun c : Card => (cleanupDataReqBdr_data c).1
  simp only [stopCard, stopStep_tx, stopStep_started, handler, logger, control, buffers, slots,
    pool, ite_self, reduceCtorEq, if_false]

theorem stopCard_timer (fw : Firmware) (c : Card) : (c.stopCard fw).timer =
    if c.started .rxPendTimer then false else c.timer := by
  have handler := fun c : Card => (unregisterRequestHandler_frame c).timer
  have logger := fun c : Card => (cleanupFwLogger_frame fw c).timer
  have control := fun (c : Card) ring => (cleanupBdr_frame c ring).timer
  have buffers := fun c : Card => (freePreallocatedRxBuffers_data c).2.2
  have slots := fun c : Card => (cleanupDataIndBdr_data c).2.2
  have pool := fun c : Card => (cleanupDataReqBdr_data c).2.2
  simp only [stopCard, stopStep_timer, stopStep_started, handler, logger, control, buffers, slots,
    pool, ite_self, reduceCtorEq, if_false]

/-- What stopping the card does to the slots. -/
theorem stopCard_rx (fw : Firmware) (c : Card) : (c.stopCard fw).rx =
    if c.started .datIndBdr then
      (if c.started .rxBuffers then c.rx.freePreallocatedRxBuffers else c.rx).cleanupDataIndBdr
    else if c.started .rxBuffers then c.rx.freePreallocatedRxBuffers else c.rx := by
  have handler := fun c : Card => (unregisterRequestHandler_frame c).rx
  have logger := fun c : Card => (cleanupFwLogger_frame fw c).rx
  have control := fun (c : Card) ring => (cleanupBdr_frame c ring).rx
  have buffers := fun c : Card => (freePreallocatedRxBuffers_data c).2.1
  have slots := fun c : Card => (cleanupDataIndBdr_data c).2.1
  have pool := fun c : Card => (cleanupDataReqBdr_data c).2.1
  simp only [stopCard, stopStep_rx, stopStep_started, handler, logger, control, buffers, slots,
    pool, ite_self, reduceCtorEq, if_false]

theorem stopCard_sound (fw : Firmware) (h : c.rx.Sound) : (c.stopCard fw).rx.Sound := by
  have freed : (if c.started .rxBuffers then c.rx.freePreallocatedRxBuffers else c.rx).Sound := by
    split
    · exact h.freePreallocatedRxBuffers
    · exact h
  rw [stopCard_rx]
  split
  · exact freed.cleanupDataIndBdr
  · exact freed

/-- What the tear-down leaves alone. -/
theorem tearDown_keeps (c : Card) :
    c.tearDown.phase = c.phase ∧ c.tearDown.started = c.started := by
  have empty : ∀ c : Card, c.emptyPendingRxBuffers.phase = c.phase ∧
      c.emptyPendingRxBuffers.started = c.started := by
    intro c
    have same := c.access_if_frame c.rx.lbufs.isEmpty .datInd
    exact ⟨same.phase, same.started⟩
  have free : ∀ c : Card, c.freePreallocatedRxBuffers.phase = c.phase ∧
      c.freePreallocatedRxBuffers.started = c.started := by
    intro c
    unfold freePreallocatedRxBuffers
    dsimp only
    split
    · exact ⟨(c.access_frame _).phase, (c.access_frame _).started⟩
    · exact ⟨rfl, rfl⟩
  have pool : ∀ c : Card, c.cleanupDataReqBdr.phase = c.phase ∧
      c.cleanupDataReqBdr.started = c.started := by
    intro c
    have same := c.access_if_frame c.tx.usedList.isEmpty .datReq
    unfold cleanupDataReqBdr
    split
    · exact ⟨same.phase, same.started⟩
    · exact ⟨rfl, rfl⟩
  have slots : ∀ c : Card, c.cleanupDataIndBdr.phase = c.phase ∧
      c.cleanupDataIndBdr.started = c.started := by
    intro c
    unfold cleanupDataIndBdr
    split <;> exact ⟨rfl, rfl⟩
  have control := fun (c : Card) ring => (cleanupBdr_frame c ring)
  constructor
  · simp only [tearDown, (slots _).1, (pool _).1, (control _ _).phase, (free _).1, (empty _).1]
  · simp only [tearDown, (slots _).2, (pool _).2, (control _ _).started, (free _).2, (empty _).2]

/-! ## What a failed start leaves to be undone -/

/-- What is there is undone when the card is stopped, and no message is held. -/
structure Undoable (c : Card) : Prop where
  pool : c.tx.prepared → c.started .datReqBdr
  timer : c.timer → c.started .rxPendTimer
  held : c.tx.held = []

theorem performStart_undoable (h : Undoable c) (step : Step) :
    Undoable (c.performStart fw o step).1 := by
  have same := c.performStart_sameData fw o step
  have ok := c.performStart_ok fw o step
  constructor
  case pool =>
    by_cases e : step = .datReqBdr
    · subst e
      intro prepared
      cases done : o.ok .datReqBdr with
      | true =>
        apply performStart_marks
        · simp [ok, perform, prepareDataReqBdr, done]
        · exact nofun
      | false =>
        rw [same.tx] at prepared
        simp only [perform, prepareDataReqBdr, done, Bool.false_eq_true, if_false] at prepared
        rw [performStart_started, ok]
        simpa [perform, prepareDataReqBdr, done] using h.pool prepared
    · rw [same.tx, perform_tx e, performStart_unmarked (Ne.symm e)]
      exact h.pool
  case timer =>
    by_cases e : step = .rxPendTimer
    · subst e
      intro set
      cases done : o.ok .rxPendTimer with
      | true =>
        apply performStart_marks
        · simp [ok, perform, done]
        · exact nofun
      | false =>
        rw [same.timer] at set
        simp only [perform, done, Bool.false_eq_true, if_false] at set
        rw [performStart_started, ok]
        simpa [perform, done] using h.timer set
    · rw [same.timer, perform_timer e, performStart_unmarked (Ne.symm e)]
      exact h.timer
  case held =>
    rw [same.tx]
    by_cases e : step = .datReqBdr
    · subst e
      unfold perform prepareDataReqBdr
      dsimp only
      split
      · rfl
      · exact h.held
    · rw [perform_tx e]
      exact h.held

/-- After a start that did not fail, all its steps are to be undone. -/
theorem start_marked {l : List Step} :
    Ends (fun c' : Card => ∀ s, (s ∈ l ∨ c.started s) → s ≠ .fwLogger → c'.started s)
      (fun _ => True) (stages (performStart fw o) l c) := by
  induction l generalizing c with
  | nil => exact .ok fun s marked _ => by simpa using marked
  | cons step l ih =>
    apply Ends.stages_cons (P := fun c' : Card => ∀ s, (s = step ∨ c.started s) →
      s ≠ .fwLogger → c'.started s)
    · apply And.intro _ fun _ => trivial
      intro ok s marked undone
      by_cases e : s = step
      · subst e
        exact performStart_marks ok undone
      · rw [performStart_unmarked e]
        exact marked.resolve_left e
    · intro c' marks
      apply ih.mono _ fun _ _ => trivial
      intro c'' later s marked undone
      apply later s _ undone
      obtain mem | before := marked
      · obtain rfl | mem := List.mem_cons.1 mem
        · exact .inr (marks s (.inl rfl) undone)
        · exact .inl mem
      · exact .inr (marks s (.inr before) undone)

/-! ## Every state of a card -/

/-- What holds of the data rings, by how far the card is. -/
structure Lived (c : Card) : Prop where
  tx : c.tx.Sound
  rx : c.rx.Sound
  fresh : c.phase = .fresh → c.tx.prepared = false ∧ c.rx.Torn
  slots : c.phase = .up ∨ c.phase = .isolated → c.rx.buffers ∨ c.rx.Torn
  timer : c.timer → c.rx.buffers ∧ c.phase = .up
  marks : c.phase = .up ∨ c.phase = .isolated →
    c.started .datReqBdr ∧ c.started .rxPendTimer
  down : c.phase = .down → c.tx.prepared = false

theorem Lived.init : Lived init where
  tx := .init
  rx := ⟨rfl, List.nodup_nil, nofun, nofun, nofun, nofun, nofun, rfl, Accounted.none⟩
  fresh := fun _ => ⟨rfl, rfl, rfl⟩
  slots := nofun
  timer := nofun
  marks := nofun
  down := nofun

theorem Lived.unset (h : Lived c) (ne : c.phase ≠ .up) : c.timer = false := by
  cases set : c.timer with
  | true => exact absurd (h.timer set).2 ne
  | false => rfl

theorem Lived.live (h : Lived c) (running : c.phase = .up ∨ c.phase = .isolated) : Live c :=
  ⟨h.tx, h.rx, h.slots running, fun set => (h.timer set).1⟩

theorem Lived.stopCard (h : Live c) (undoable : Undoable c) : Lived (c.stopCard fw) := by
  have gone : (c.stopCard fw).tx.prepared = false := by
    rw [stopCard_tx]
    split
    case isTrue => exact cleanupDataReqBdr_unprepared c.tx
    case isFalse unset =>
      cases prepared : c.tx.prepared with
      | true => exact absurd (undoable.pool prepared) unset
      | false => rfl
  have unset : (c.stopCard fw).timer = false := by
    rw [stopCard_timer]
    split
    case isTrue => rfl
    case isFalse unset =>
      cases set : c.timer with
      | true => exact absurd (undoable.timer set) unset
      | false => rfl
  constructor
  case tx =>
    rw [stopCard_tx]
    split
    · exact h.tx.cleanupDataReqBdr undoable.held
    · exact h.tx
  case rx => exact stopCard_sound fw h.rx
  case fresh => exact nofun
  case slots => exact nofun
  case timer => exact fun set => absurd (unset.symm.trans set) Bool.false_ne_true
  case marks => exact nofun
  case down => exact fun _ => gone

theorem Lived.startCard (h : Lived c) (fresh : c.phase = .fresh) (o : Outcome) :
    Lived (c.startCard fw o).1 := by
  obtain ⟨pool, torn⟩ := h.fresh fresh
  have unset := h.unset (by rw [fresh]; exact (by rintro ⟨⟩))
  have bare : Bare c := ⟨h.tx, h.rx, pool, torn, unset⟩
  have unheld : c.tx.held = [] := by
    have lists := h.tx.lists
    rw [TxData.descriptors, pool] at lists
    have used := h.tx.used
    rw [(List.append_eq_nil_iff.1 lists.eq_nil).2] at used
    exact (List.append_eq_nil_iff.1 used.symm.eq_nil).1
  have undoable : Undoable c := by
    constructor
    · rw [pool]
      rintro ⟨⟩
    · rw [unset]
      rintro ⟨⟩
    · exact unheld
  have keeps : Ends Undoable Undoable (stages (performStart fw o) startOrder c) :=
    Ends.stages_keep (fun step _ c h => .of_either (performStart_undoable h step)) undoable
  have data : Ends Whole Live (stages (performStart fw o) startOrder c) := start_live bare
  have marks : Ends (fun c' : Card => ∀ s, (s ∈ startOrder ∨ c.started s) → s ≠ .fwLogger →
      c'.started s) (fun _ => True) (stages (performStart fw o) startOrder c) := start_marked
  unfold Card.startCard
  dsimp only
  split
  case isTrue ok =>
    have whole := data.1 ok
    constructor
    case tx => exact whole.tx
    case rx => exact whole.rx
    case fresh => rintro ⟨⟩
    case slots => exact fun _ => .inl whole.slots
    case timer => exact fun _ => ⟨whole.slots, rfl⟩
    case marks =>
      intro _
      constructor
      · exact marks.1 ok .datReqBdr (.inl (by decide)) (by rintro ⟨⟩)
      · exact marks.1 ok .rxPendTimer (.inl (by decide)) (by rintro ⟨⟩)
    case down => rintro ⟨⟩
  case isFalse failed =>
    exact .stopCard (data.2 (by simpa using failed)) keeps.either

theorem Lived.restore (h : Lived c) (isolated : c.phase = .isolated) (o : Outcome)
    (unheld : o.boots → c.tx.held = []) : Lived (c.restore fw o).1 := by
  have marks := h.marks (.inr isolated)
  have unset := h.unset (by rw [isolated]; exact nofun)
  have live : Live { c with phase := .up, eventsStopped := false } :=
    (h.live (.inr isolated)).congr ⟨rfl, rfl, rfl⟩
  unfold Card.restore
  dsimp only
  split
  case isTrue boots =>
    have bare := tearDown_bare live (unheld boots) unset
    have keeps := tearDown_keeps { c with phase := .up, eventsStopped := false }
    generalize { c with phase := .up, eventsStopped := false }.tearDown = torn at bare keeps
    have again : Ends Whole Live (stages (performRestore fw o) restoreOrder torn) :=
      restore_live bare
    have after := (again.mono (fun _ h => h.live) (fun _ h => h)).either
    have same : Ends (fun c' : Card => c'.phase = .up ∧ c'.started = c.started)
        (fun c' : Card => c'.phase = .up ∧ c'.started = c.started)
        (stages (performRestore fw o) restoreOrder torn) := by
      apply Ends.stages_keep
      · intro step _ c' same
        have kept := c'.performRestore_keeps fw o step
        exact .of_either ⟨kept.1.trans same.1, kept.2.trans same.2⟩
      · exact keeps
    obtain ⟨phase, started⟩ := same.either
    constructor
    case tx => exact after.tx
    case rx => exact after.rx
    case fresh => exact fun fresh => nomatch phase.symm.trans fresh
    case slots => exact fun _ => after.slots
    case timer => exact fun set => ⟨after.timer set, phase⟩
    case marks =>
      intro _
      rw [started]
      exact marks
    case down => exact fun down => nomatch phase.symm.trans down
  case isFalse =>
    constructor
    case tx => exact h.tx
    case rx => exact h.rx
    case fresh => exact nofun
    case slots => exact fun _ => live.slots
    case timer => exact fun set => ⟨live.timer set, rfl⟩
    case marks => exact fun _ => marks
    case down => exact nofun

/-- The pool changes, and nothing else of the data rings. -/
theorem Lived.pool {tx : TxData} (h : Lived c) (same : Frame c c') (sound : tx.Sound)
    (prepared : tx.prepared = c.tx.prepared) : Lived { c' with tx } := by
  constructor
  case tx => exact sound
  case rx => exact same.rx ▸ h.rx
  case fresh =>
    intro fresh
    rw [same.phase] at fresh
    obtain ⟨pool, torn⟩ := h.fresh fresh
    exact ⟨prepared.trans pool, same.rx ▸ torn⟩
  case slots =>
    dsimp only
    rw [same.phase, same.rx]
    exact h.slots
  case timer =>
    dsimp only
    rw [same.timer, same.rx, same.phase]
    exact h.timer
  case marks =>
    dsimp only
    rw [same.phase, same.started]
    exact h.marks
  case down =>
    dsimp only
    rw [same.phase, prepared]
    exact h.down

/-- The slots change, and nothing else of the data rings. -/
theorem Lived.slotsChange {rx : RxData} (h : Lived c) (same : Frame c c') (sound : rx.Sound)
    (was : c.rx.buffers) (buffers : rx.buffers = c.rx.buffers) : Lived { c' with rx } := by
  constructor
  case tx => exact same.tx ▸ h.tx
  case rx => exact sound
  case fresh =>
    intro fresh
    rw [same.phase] at fresh
    have torn := (h.fresh fresh).2.buffers
    exact absurd (torn.symm.trans was) Bool.false_ne_true
  case slots => exact fun _ => .inl (buffers.trans was)
  case timer =>
    dsimp only
    rw [same.timer, same.phase]
    intro set
    exact ⟨buffers.trans was, (h.timer set).2⟩
  case marks =>
    dsimp only
    rw [same.phase, same.started]
    exact h.marks
  case down =>
    dsimp only
    rw [same.phase, same.tx]
    exact h.down

theorem getMsgToSend_prepared (t : TxData) (vapHandle : Nat) :
    (t.getMsgToSend vapHandle).1.prepared = t.prepared := by
  change (t.getMsgFromDataPool vapHandle).1.prepared = _
  unfold TxData.getMsgFromDataPool
  split <;> rfl

theorem Lived.next (h : Lived c) {label : Label} (enabled : c.Enabled label) :
    Lived (c.step fw label) := by
  cases label with
  | start o => exact h.startCard enabled o
  | isolate =>
    have same := c.unregisterRequestHandler_frame
    constructor
    case tx => exact same.tx ▸ h.tx
    case rx => exact same.rx ▸ h.rx
    case fresh => exact nofun
    case slots =>
      intro _
      change c.unregisterRequestHandler.rx.buffers ∨ c.unregisterRequestHandler.rx.Torn
      rw [same.rx]
      exact h.slots enabled
    case timer => exact nofun
    case marks =>
      intro _
      change c.unregisterRequestHandler.started _ ∧ c.unregisterRequestHandler.started _
      rw [same.started]
      exact h.marks enabled
    case down => exact nofun
  | restore o => exact h.restore enabled.1 o enabled.2
  | stopMacEvents => exact ⟨h.tx, h.rx, h.fresh, h.slots, h.timer, h.marks, h.down⟩
  | stop =>
    have marks := h.marks enabled.1
    exact .stopCard (h.live enabled.1) ⟨fun _ => marks.1, fun _ => marks.2, enabled.2⟩
  | getMsgToSend vapHandle =>
    have same := c.access_if_frame c.tx.freeList.isEmpty .datReq
    have lived := h.pool same (h.tx.getMsgFromDataPool vapHandle)
      (getMsgToSend_prepared c.tx vapHandle)
    dsimp only [Card.step]
    rw [same.tx]
    exact lived
  | sendData i data =>
    exact h.pool (c.access_frame .datReq) (h.tx.sendData enabled data) rfl
  | releaseMsgToSend i =>
    exact h.pool (c.access_frame .datReq) (h.tx.releaseMsgToSend enabled) rfl
  | datCfm i status nofRetries =>
    simp only [Card.step, receiveDatCfm]
    split
    · exact h
    · exact h.pool (c.access_frame .datReq) (h.tx.handleDatCfm enabled status nofRetries) rfl
  | datInd i allocated =>
    obtain ⟨prepared, lt, absent⟩ := enabled
    have same := c.access_frame .datInd
    simp only [Card.step, receiveDatInd]
    split
    · have lived := h.slotsChange same h.rx prepared rfl
      rw [← same.rx] at lived
      exact lived
    · exact h.slotsChange same (h.rx.handleDatInd prepared lt absent allocated) prepared
        (RxData.handleDatInd_buffers _ _ _)
  | recoverRx alloc =>
    have prepared := (h.timer enabled).1
    have same := c.access_if_frame c.rx.lbufs.isEmpty .datInd
    have lived := h.slotsChange same
      (h.rx.recoverRxBuffers alloc maxRxBuffsToRecover prepared) prepared
      (RxData.recoverRxBuffers_buffers _ _ _)
    dsimp only [Card.step]
    rw [same.rx]
    exact lived

theorem Reachable.lived (run : Reachable fw c) : Lived c :=
  Runs.invariant run .init fun _ _ h enabled => h.next enabled

/-! ## The pool of TX descriptors -/

/-- A descriptor is in one of the lists, once. -/
theorem TxData.Sound.count_add_count {t : TxData} (h : t.Sound) (i : Nat) :
    t.freeList.count i + t.usedList.count i = if i ∈ t.descriptors then 1 else 0 := by
  rw [← List.count_append]
  split
  case isTrue mem => exact List.count_eq_one_of_mem h.nodup (h.lists.symm.subset mem)
  case isFalse absent => exact List.count_eq_zero.2 fun mem => absent (h.lists.subset mem)

/-- A buffer that was handed over is outstanding, or was passed on or freed, and that once. -/
theorem TxData.Sound.passed_or_freed {t : TxData} (h : t.Sound) {b : Nat} (lt : b < t.handed) :
    t.passedBufs.count b + t.freed.count b = if b ∈ t.outstanding then 0 else 1 := by
  have once := h.bufs.count_add_count lt
  rw [List.count_append] at once
  split
  case isTrue mem =>
    have := List.count_pos_iff.2 mem
    omega
  case isFalse absent =>
    have := List.count_eq_zero.2 absent
    omega

/-- In every state of a card its TX descriptors are in one of the two lists, the counters are the
length of the free list and the peak of the used one, and a buffer that was handed over is passed
on or freed, once. When the card is stopped none is left. -/
theorem tx_pool_exact (run : Reachable fw c) :
    (∀ i, c.tx.freeList.count i + c.tx.usedList.count i =
      if i ∈ c.tx.descriptors then 1 else 0) ∧
    (c.tx.prepared → c.tx.nofFreeBds = c.tx.freeList.length ∧
      c.tx.usedList.length ∈ c.tx.usedCounts ∧ c.tx.maxUsedBds ∈ c.tx.usedCounts ∧
      ∀ k ∈ c.tx.usedCounts, k ≤ c.tx.maxUsedBds) ∧
    (∀ b < c.tx.handed, c.tx.passedBufs.count b + c.tx.freed.count b =
      if b ∈ c.tx.outstanding then 0 else 1) ∧
    (c.phase = .down → c.tx.outstanding = []) := by
  have h := run.lived
  refine ⟨h.tx.count_add_count, ?_, fun b lt => h.tx.passed_or_freed lt, ?_⟩
  case refine_1 =>
    intro prepared
    obtain ⟨peak, most⟩ := h.tx.peak prepared
    exact ⟨h.tx.nofFree prepared, h.tx.counted prepared, peak, most⟩
  case refine_2 =>
    intro down
    have gone := h.down down
    have empty : c.tx.sent = [] := by
      apply List.eq_nil_iff_forall_not_mem.2
      intro i sent
      have used := List.mem_append_right c.tx.freeList (h.tx.used_of_sent sent)
      exact Bool.false_ne_true (gone.symm.trans (h.tx.prepared_of_mem used))
    rw [TxData.outstanding, empty, List.filterMap_nil]

/-- A card of `n` descriptors a ring, whose firmware has a logger. -/
def small (n : Nat) : Firmware := ⟨fun _ => n, true, none⟩

/-- Every step goes well. -/
def Outcome.fine : Outcome := ⟨fun _ => true, fun _ => true, true, fun _ => true⟩

/-- One buffer is passed on, one is confirmed only after the isolation and freed by the restore, and
one is freed by the stop. -/
theorem tx_pool_exact_crash :
    let c := [Label.start .fine, .getMsgToSend 0, .sendData 0 ⟨0, 0, 9, 0⟩, .getMsgToSend 0,
      .sendData 1 ⟨0, 0, 9, 0⟩, .datCfm 1 0 0, .isolate, .datCfm 0 0 0, .restore .fine,
      .getMsgToSend 0, .sendData 0 ⟨0, 0, 9, 0⟩, .stop].foldl (Card.step (small 2)) init
    c.phase = .down ∧ c.tx.passedBufs = [1] ∧ c.tx.freed = [0, 2] ∧ c.tx.outstanding = [] := by
  intro c
  have run : Reachable (small 2) c := Runs.of_allowed (by decide)
  have exact := tx_pool_exact run
  exact ⟨by decide, by decide, by decide, exact.2.2.2 (by decide)⟩

/-! ## The slots for received data -/

/-- In every state of a card its RX slots are pending or have a mapped buffer, each queue counts its
slots that are not pending, the queues share the slots between them, and no assertion has failed.
Without prepared buffers nothing is pending. -/
theorem rx_slots_conserved (run : Reachable fw c) :
    c.rx.asserts = true ∧
    (c.rx.buffers →
      (∀ i ∈ c.rx.lbufs, i < c.rx.nofBds ∧ c.rx.lbufs.count i = 1 ∧
        (c.rx.mirror i).nbuf = none) ∧
      (∀ i < c.rx.nofBds, i ∉ c.rx.lbufs →
        (c.rx.mirror i).nbuf.isSome ∧ (c.rx.mirror i).mapped) ∧
      (∀ i < c.rx.nofBds, (c.rx.mirror i).queIdx < c.rx.nofInUse) ∧
      ∀ q < c.rx.nofInUse,
        (c.rx.queue q).queSize =
          {i ∈ Finset.range c.rx.nofBds | (c.rx.mirror i).queIdx = q ∧ i ∉ c.rx.lbufs}.card ∧
        (c.rx.queue q).maxQueSize =
          {i ∈ Finset.range c.rx.nofBds | (c.rx.mirror i).queIdx = q}.card) ∧
    (c.phase = .up ∨ c.phase = .isolated → ¬ c.rx.buffers → c.rx.lbufs = []) := by
  have h := run.lived
  refine ⟨h.rx.asserted, ?_, fun running torn => ((h.slots running).resolve_left torn).lbufs⟩
  intro prepared
  refine ⟨?_, h.rx.carrying prepared, ?_, ?_⟩
  case refine_1 =>
    intro i mem
    exact ⟨h.rx.lt i mem, List.count_eq_one_of_mem h.rx.nodup mem, h.rx.pending prepared i mem⟩
  case refine_2 =>
    intro i lt
    obtain ⟨q, below, mem⟩ := h.rx.exists_queue lt
    rwa [h.rx.slots prepared q below i mem]
  case refine_3 =>
    intro q below
    have slots := h.rx.slotsOf_eq prepared below
    constructor
    · rw [h.rx.sizes q below, slots, Finset.filter_filter]
    · rw [← slots, RxData.card_slotsOf]

/-- Slots stay pending until the timer finds a buffer for one of them, and the restore starts with
new ones although a slot is pending. -/
theorem rx_slots_conserved_crash :
    let few : Outcome := { Outcome.fine with rxAlloc := fun i => i < 3 }
    let c := [Label.start few, .datInd 0 false, .recoverRx fun i => i = 0, .isolate,
      .datInd 1 false, .restore { Outcome.fine with ok := fun s => s ≠ .manIndBdr }, .isolate,
      .restore few].foldl (Card.step (small 5)) init
    c.rx.lbufs = [4, 3] ∧ c.rx.asserts = true := by
  intro few c
  have run : Reachable (small 5) c := Runs.of_allowed (by decide)
  exact ⟨by decide, (rx_slots_conserved run).1⟩

end Wave300.Mmb.Card
