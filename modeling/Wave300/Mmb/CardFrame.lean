import Wave300.Mmb.Card

/-!
# What the steps of a card leave alone

Most of what is done to a card concerns the memory of its rings and of the logger only. The data
rings are changed by three functions each, and so what holds of them is followed through the start,
the restoration and the stop of the card with the lemmas here.
-/

namespace Wave300.Mmb.Card

open Lib

variable {fw : Firmware} {o : Outcome} {c c' c'' : Card} {ring : Ring} {step : Step}

/-- All but the memory of the rings and of the logger, and the handler, is as before. -/
structure Frame (c c' : Card) : Prop where
  tx : c'.tx = c.tx
  rx : c'.rx = c.rx
  phase : c'.phase = c.phase
  timer : c'.timer = c.timer
  started : c'.started = c.started

theorem Frame.refl (c : Card) : Frame c c := ⟨rfl, rfl, rfl, rfl, rfl⟩

theorem Frame.trans (h : Frame c c') (h' : Frame c' c'') : Frame c c'' where
  tx := h'.tx.trans h.tx
  rx := h'.rx.trans h.rx
  phase := h'.phase.trans h.phase
  timer := h'.timer.trans h.timer
  started := h'.started.trans h.started

theorem access_frame (c : Card) (ring : Ring) : Frame c (c.access ring) := by
  unfold access
  split <;> exact ⟨rfl, rfl, rfl, rfl, rfl⟩

theorem access_if_frame (c : Card) (b : Bool) (ring : Ring) :
    Frame c (if b then c else c.access ring) := by
  split
  · exact .refl c
  · exact c.access_frame ring

theorem prepareBdr_frame (c : Card) (ring : Ring) (allocated : Bool) :
    Frame c (c.prepareBdr ring allocated).1 := by
  unfold prepareBdr
  split <;> exact ⟨rfl, rfl, rfl, rfl, rfl⟩

theorem cleanupBdr_frame (c : Card) (ring : Ring) : Frame c (c.cleanupBdr ring) := by
  unfold cleanupBdr
  split <;> exact ⟨rfl, rfl, rfl, rfl, rfl⟩

theorem freeLogBufs_frame (left i : Nat) (c : Card) : Frame c (freeLogBufs left i c) := by
  induction left generalizing i c with
  | zero => exact .refl c
  | succ left ih =>
    unfold freeLogBufs
    dsimp only
    have accessed := c.access_frame .logInd
    split
    · exact accessed.trans (ih _ _)
    · apply Frame.trans _ (ih _ _)
      exact accessed.trans ⟨rfl, rfl, rfl, rfl, rfl⟩

theorem cleanupFwLogger_frame (fw : Firmware) (c : Card) : Frame c (c.cleanupFwLogger fw) :=
  (freeLogBufs_frame _ _ c).trans (cleanupBdr_frame _ _)

theorem allocFwLoggerBuffers_frame (alloc : Nat → Bool) (count i : Nat) (c : Card) :
    Frame c (allocFwLoggerBuffers alloc count i c).1 := by
  induction count generalizing i c with
  | zero => exact .refl c
  | succ count ih =>
    unfold allocFwLoggerBuffers
    dsimp only
    have accessed := c.access_frame .logInd
    split
    · apply Frame.trans _ (ih _ _)
      exact accessed.trans ⟨rfl, rfl, rfl, rfl, rfl⟩
    · exact accessed

theorem allocIfAny_frame (alloc : Nat → Bool) (start count bufsize : Nat) (c : Card) :
    Frame c (allocIfAny alloc start count bufsize c).1 := by
  unfold allocIfAny
  split
  · exact allocFwLoggerBuffers_frame _ _ _ c
  · exact .refl c

theorem allocLogBufs_frame (fw : Firmware) (o : Outcome) (c : Card) :
    Frame c (c.allocLogBufs fw o).1 := by
  unfold allocLogBufs
  split
  · exact allocFwLoggerBuffers_frame _ _ _ c
  · exact (allocIfAny_frame _ _ _ _ c).trans (allocIfAny_frame _ _ _ _ _)

theorem initFwLogger_frame (fw : Firmware) (o : Outcome) (c : Card) :
    Frame c (c.initFwLogger fw o).1 := by
  have made := c.prepareBdr_frame .logInd o.logRing
  unfold initFwLogger
  dsimp only
  split
  · exact made
  · split
    · exact made.trans ⟨rfl, rfl, rfl, rfl, rfl⟩
    · have empty : Frame c { (c.prepareBdr .logInd o.logRing).1 with logBufs := fun _ => none } :=
        made.trans ⟨rfl, rfl, rfl, rfl, rfl⟩
      have allocated := empty.trans (allocLogBufs_frame fw o _)
      split
      · exact allocated.trans (access_frame _ _)
      · exact allocated.trans (cleanupFwLogger_frame _ _)

theorem registerRequestHandler_frame (c : Card) (ok : Bool) :
    Frame c (c.registerRequestHandler ok).1 := by
  unfold registerRequestHandler
  split <;> exact ⟨rfl, rfl, rfl, rfl, rfl⟩

theorem unregisterRequestHandler_frame (c : Card) : Frame c c.unregisterRequestHandler :=
  ⟨rfl, rfl, rfl, rfl, rfl⟩

/-! ## The flags and the handler -/

/-- The flags of the rings and the handler are as before. -/
structure Fixed (c c' : Card) : Prop where
  flags : c'.flags = c.flags
  handler : c'.statIrbHandle = c.statIrbHandle

theorem Fixed.trans (h : Fixed c c') (h' : Fixed c' c'') : Fixed c c'' :=
  ⟨h'.flags.trans h.flags, h'.handler.trans h.handler⟩

theorem access_fixed (c : Card) (ring : Ring) : Fixed c (c.access ring) := by
  unfold access
  split <;> exact ⟨rfl, rfl⟩

theorem freeLogBufs_fixed (left i : Nat) (c : Card) : Fixed c (freeLogBufs left i c) := by
  induction left generalizing i c with
  | zero => exact ⟨rfl, rfl⟩
  | succ left ih =>
    have accessed := c.access_fixed .logInd
    unfold freeLogBufs
    dsimp only
    split
    · exact accessed.trans (ih _ _)
    · apply Fixed.trans _ (ih _ _)
      exact ⟨accessed.flags, accessed.handler⟩

theorem allocFwLoggerBuffers_fixed (alloc : Nat → Bool) (count i : Nat) (c : Card) :
    Fixed c (allocFwLoggerBuffers alloc count i c).1 := by
  induction count generalizing i c with
  | zero => exact ⟨rfl, rfl⟩
  | succ count ih =>
    have accessed := c.access_fixed .logInd
    unfold allocFwLoggerBuffers
    dsimp only
    split
    · apply Fixed.trans _ (ih _ _)
      exact ⟨accessed.flags, accessed.handler⟩
    · exact accessed

theorem allocIfAny_fixed (alloc : Nat → Bool) (start count bufsize : Nat) (c : Card) :
    Fixed c (allocIfAny alloc start count bufsize c).1 := by
  unfold allocIfAny
  split
  · exact allocFwLoggerBuffers_fixed _ _ _ c
  · exact ⟨rfl, rfl⟩

theorem allocLogBufs_fixed (fw : Firmware) (o : Outcome) (c : Card) :
    Fixed c (c.allocLogBufs fw o).1 := by
  unfold allocLogBufs
  split
  · exact allocFwLoggerBuffers_fixed _ _ _ c
  · exact (allocIfAny_fixed _ _ _ _ c).trans (allocIfAny_fixed _ _ _ _ _)

theorem cleanupBdr_handler (c : Card) (ring : Ring) :
    (c.cleanupBdr ring).statIrbHandle = c.statIrbHandle := by
  unfold cleanupBdr
  split <;> rfl

theorem cleanupFwLogger_handler (fw : Firmware) (c : Card) :
    (c.cleanupFwLogger fw).statIrbHandle = c.statIrbHandle :=
  (cleanupBdr_handler _ _).trans (freeLogBufs_fixed _ _ c).handler

theorem initFwLogger_handler (fw : Firmware) (o : Outcome) (c : Card) :
    (c.initFwLogger fw o).1.statIrbHandle = c.statIrbHandle := by
  have made : (c.prepareBdr .logInd o.logRing).1.statIrbHandle = c.statIrbHandle := by
    unfold prepareBdr
    split <;> rfl
  unfold initFwLogger
  dsimp only
  split
  · exact made
  · split
    · exact made
    · have allocated := allocLogBufs_fixed fw o
        { (c.prepareBdr .logInd o.logRing).1 with logBufs := fun _ => none }
      split
      · exact (access_fixed _ _).handler.trans (allocated.handler.trans made)
      · exact (cleanupFwLogger_handler _ _).trans (allocated.handler.trans made)

/-- A logger that was initialised has its mirror. -/
theorem initFwLogger_flag (ok : (c.initFwLogger fw o).2 = true) :
    (c.initFwLogger fw o).1.flags .logInd = true := by
  unfold initFwLogger prepareBdr at ok ⊢
  cases made : o.logRing with
  | false => simp [made] at ok
  | true =>
    simp only [made, if_true, Bool.not_true, Bool.false_eq_true, if_false] at ok ⊢
    split at ok
    case isTrue => cases ok
    case isFalse agree =>
      split at ok
      case isTrue allocated =>
        rw [if_neg agree, if_pos allocated, (access_fixed _ _).flags,
          (allocLogBufs_fixed _ _ _).flags]
        simp [setFlag]
      case isFalse => cases ok

/-- The steps that concern the data rings or the timer. -/
def Step.isData : Step → Bool
  | .datReqBdr | .datIndBdr | .rxQueues | .rxBuffers | .rxPendTimer => true
  | _ => false

theorem perform_frame (other : step.isData = false) : Frame c (c.perform fw o step).1 := by
  cases step with
  | datReqBdr | datIndBdr | rxQueues | rxBuffers | rxPendTimer => cases other
  | manReqBdr | manIndBdr | dbgReqBdr | dbgIndBdr => exact prepareBdr_frame _ _ _
  | fwLogger =>
    unfold perform
    dsimp only
    split
    · exact initFwLogger_frame fw o c
    · exact .refl c
  | statReqHandler => exact registerRequestHandler_frame _ _
  | loadFirmware | waitChiMagic | calibrationCache | txmm | txdm | sendReady | hwDepCfg
  | fwLogSeverity | fwLogMode => exact .refl c

theorem performRestore_frame (other : step.isData = false) :
    Frame c (c.performRestore fw o step).1 := by
  cases step with
  | fwLogger =>
    unfold performRestore
    dsimp only
    split
    · exact (cleanupFwLogger_frame fw c).trans (initFwLogger_frame fw o _)
    · exact .refl c
  | _ => exact perform_frame other

/-- The data rings and the timer are as before. -/
structure SameData (c c' : Card) : Prop where
  tx : c'.tx = c.tx
  rx : c'.rx = c.rx
  timer : c'.timer = c.timer

theorem Frame.sameData (h : Frame c c') : SameData c c' := ⟨h.tx, h.rx, h.timer⟩

theorem performStart_ok (fw : Firmware) (o : Outcome) (c : Card) (step : Step) :
    (c.performStart fw o step).2 = (c.perform fw o step).2 := by
  unfold performStart
  dsimp only
  split
  case isTrue e => exact e.symm
  case isFalse e => simpa using e

/-- A step of the start does to the data rings what the step alone does. -/
theorem performStart_sameData (fw : Firmware) (o : Outcome) (c : Card) (step : Step) :
    SameData (c.perform fw o step).1 (c.performStart fw o step).1 := by
  unfold performStart
  dsimp only
  split <;> exact ⟨rfl, rfl, rfl⟩

theorem performStart_frame (other : step.isData = false) :
    SameData c (c.performStart fw o step).1 := by
  have first : Frame c (c.perform fw o step).1 := perform_frame other
  have then' := c.performStart_sameData fw o step
  exact ⟨then'.tx.trans first.tx, then'.rx.trans first.rx, then'.timer.trans first.timer⟩

theorem performRestore_eq (ne : step ≠ .fwLogger) :
    c.performRestore fw o step = c.perform fw o step := by
  cases step with
  | fwLogger => exact absurd rfl ne
  | _ => rfl

theorem performRestore_data (data : step.isData = true) :
    c.performRestore fw o step = c.perform fw o step := by
  apply performRestore_eq
  rintro rfl
  cases data

/-- No step changes how far the card is, or what is to be undone. -/
theorem perform_keeps (fw : Firmware) (o : Outcome) (c : Card) (step : Step) :
    (c.perform fw o step).1.phase = c.phase ∧ (c.perform fw o step).1.started = c.started := by
  cases step with
  | datReqBdr =>
    unfold perform prepareDataReqBdr
    dsimp only
    split <;> exact ⟨rfl, rfl⟩
  | datIndBdr =>
    unfold perform prepareDataIndBdr
    dsimp only
    split <;> exact ⟨rfl, rfl⟩
  | rxQueues => exact ⟨rfl, rfl⟩
  | rxBuffers =>
    have same := c.access_frame .datInd
    exact ⟨same.phase, same.started⟩
  | rxPendTimer =>
    unfold perform
    dsimp only
    split <;> exact ⟨rfl, rfl⟩
  | loadFirmware | waitChiMagic | manReqBdr | manIndBdr | dbgReqBdr | dbgIndBdr | calibrationCache
  | fwLogger | txmm | txdm | sendReady | hwDepCfg | fwLogSeverity | fwLogMode | statReqHandler =>
    exact ⟨(perform_frame rfl).phase, (perform_frame rfl).started⟩

theorem perform_tx (ne : step ≠ .datReqBdr) : (c.perform fw o step).1.tx = c.tx := by
  cases data : step.isData with
  | false => exact (perform_frame data).tx
  | true =>
    cases step with
    | datReqBdr => exact absurd rfl ne
    | datIndBdr =>
      unfold perform prepareDataIndBdr
      dsimp only
      split <;> rfl
    | rxQueues => rfl
    | rxBuffers => exact (c.access_frame .datInd).tx
    | rxPendTimer =>
      unfold perform
      dsimp only
      split <;> rfl
    | _ => cases data

theorem perform_timer (ne : step ≠ .rxPendTimer) : (c.perform fw o step).1.timer = c.timer := by
  cases data : step.isData with
  | false => exact (perform_frame data).timer
  | true =>
    cases step with
    | datReqBdr =>
      unfold perform prepareDataReqBdr
      dsimp only
      split <;> rfl
    | datIndBdr =>
      unfold perform prepareDataIndBdr
      dsimp only
      split <;> rfl
    | rxQueues => rfl
    | rxBuffers => exact (c.access_frame .datInd).timer
    | rxPendTimer => exact absurd rfl ne
    | _ => cases data

theorem performRestore_keeps (fw : Firmware) (o : Outcome) (c : Card) (step : Step) :
    (c.performRestore fw o step).1.phase = c.phase ∧
      (c.performRestore fw o step).1.started = c.started := by
  cases data : step.isData with
  | true =>
    rw [performRestore_data data]
    exact c.perform_keeps fw o step
  | false => exact ⟨(performRestore_frame data).phase, (performRestore_frame data).started⟩

theorem performStart_started (fw : Firmware) (o : Outcome) (c : Card) (step : Step) :
    (c.performStart fw o step).1.started =
      if (c.performStart fw o step).2 then
        Function.update c.started step (step ≠ .fwLogger || fw.loggerSupported)
      else c.started := by
  have keeps := (c.perform_keeps fw o step).2
  unfold performStart
  dsimp only
  split
  · rw [if_pos rfl, keeps]
  · exact keeps

/-- A step that was done is to be undone. -/
theorem performStart_marks (ok : (c.performStart fw o step).2 = true) (undone : step ≠ .fwLogger) :
    (c.performStart fw o step).1.started step = true := by
  rw [performStart_started, if_pos ok, Function.update_self]
  simp [undone]

/-- What is to be undone for one step stays so when others are done. -/
theorem performStart_unmarked {s : Step} (ne : s ≠ step) :
    (c.performStart fw o step).1.started s = c.started s := by
  rw [performStart_started]
  split
  · exact Function.update_of_ne ne _ _
  · rfl

/-- A step that was undone is not undone again, and the others are left alone. -/
theorem stopStep_started (c : Card) (step : Step) (undo : Card → Card) (s : Step) :
    (c.stopStep step undo).started s = if s = step then false else c.started s := by
  unfold stopStep
  split
  case isTrue =>
    dsimp only
    split
    case isTrue e => rw [e, Function.update_self]
    case isFalse ne => rw [Function.update_of_ne ne]
  case isFalse unset =>
    split
    case isTrue e => simpa [e] using unset
    case isFalse => rfl

theorem stopStep_tx (c : Card) (step : Step) (undo : Card → Card) :
    (c.stopStep step undo).tx = if c.started step then (undo c).tx else c.tx := by
  unfold stopStep
  split <;> rfl

theorem stopStep_rx (c : Card) (step : Step) (undo : Card → Card) :
    (c.stopStep step undo).rx = if c.started step then (undo c).rx else c.rx := by
  unfold stopStep
  split <;> rfl

theorem stopStep_timer (c : Card) (step : Step) (undo : Card → Card) :
    (c.stopStep step undo).timer = if c.started step then (undo c).timer else c.timer := by
  unfold stopStep
  split <;> rfl

end Wave300.Mmb.Card
