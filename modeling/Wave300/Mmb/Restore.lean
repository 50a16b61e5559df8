import Wave300.Mmb.DataRings
import Wave300.Mmb.Memory

/-!
# A card that is restored again and again

Any step of the restoration may fail, and the card is then isolated and restored once more, or
stopped. What the steps have made by then is released by the next tear-down, by the flags of the
rings. The logger has a flag as well, but `_mtlk_mmb_cleanup_fw_logger` reads the mirror without
asking for it. So the account of a card is kept as long as the logger gets its memory whenever it is
made again.
-/

namespace Wave300.Mmb.Card

open Lib

variable {fw : Firmware} {o : Outcome} {c c' : Card} {step : Step} {rings : List Ring} {b : Bool}

/-! ## Making the rings -/

/-- Of the rings, besides that of the logger, these are prepared so far. -/
structure Stage (fw : Firmware) (b : Bool) (rings : List Ring) (c : Card) : Prop where
  held : Held fw [] c
  log : c.flags .logInd = b
  ready : ∀ ring, ring ≠ .logInd → c.prepared ring = decide (ring ∈ rings)
  handler : c.statIrbHandle = none
  slots : c.rx.buffers → c.rx.ring
  pool : .datReq ∈ rings → c.tx.freeList = List.range (fw.nofBds .datReq) ∧ c.tx.usedList = []
  nofBds : .datInd ∈ rings → c.rx.nofBds = fw.nofBds .datInd

/-- What a step leaves when it fails. -/
structure Part (fw : Firmware) (c : Card) : Prop where
  held : Held fw c.statIrbHandle.toList c
  slots : c.rx.buffers → c.rx.ring

theorem Stage.part (h : Stage fw b rings c) : Part fw c :=
  ⟨by rw [h.handler]; exact h.held, h.slots⟩

/-- What the stages depend on. -/
structure SameCard (c c' : Card) : Prop extends SameMemory c c' where
  handler : c'.statIrbHandle = c.statIrbHandle
  tx : c'.tx = c.tx
  rx : c'.rx = c.rx
  timer : c'.timer = c.timer

theorem Stage.congr (h : Stage fw b rings c) (same : SameCard c c') : Stage fw b rings c' where
  held := h.held.congr same.toSameMemory
  log := (same.prepared .logInd).trans h.log
  ready := fun ring ne => (same.prepared ring).trans (h.ready ring ne)
  handler := same.handler.trans h.handler
  slots := same.rx ▸ h.slots
  pool := same.tx ▸ h.pool
  nofBds := same.rx ▸ h.nofBds

theorem Part.congr (h : Part fw c) (same : SameCard c c') : Part fw c' where
  held := by
    rw [same.handler]
    exact h.held.congr same.toSameMemory
  slots := same.rx ▸ h.slots

/-- A ring for messages is made. -/
theorem Stage.prepareBdr {ring : Ring} (h : Stage fw b rings c) (new : ring ∉ rings)
    (ne : ring ≠ .datReq) (ne' : ring ≠ .datInd) (ne'' : ring ≠ .logInd) (allocated : Bool) :
    Ends (Stage fw b (ring :: rings)) (Part fw) (c.prepareBdr ring allocated) := by
  have unprepared : c.prepared ring = false := by rw [h.ready ring ne'', decide_eq_false new]
  have held := h.held.prepareBdr unprepared ne ne' allocated
  unfold Card.prepareBdr at held ⊢
  split
  case isTrue made =>
    rw [if_pos made] at held
    obtain ⟨held, flags⟩ := held.1 rfl
    apply Ends.ok
    constructor
    case held => exact held
    case log =>
      rw [flags, Function.update_of_ne ne''.symm]
      exact h.log
    case ready =>
      intro r other
      apply (prepared_setFlag flags rfl rfl ne ne' r).trans
      rw [h.ready r other]
      by_cases e : r = ring <;> simp [e]
    case handler => exact h.handler
    case slots => exact h.slots
    case pool => exact fun mem => h.pool ((List.mem_cons.1 mem).resolve_left ne.symm)
    case nofBds => exact fun mem => h.nofBds ((List.mem_cons.1 mem).resolve_left ne'.symm)
  case isFalse failed =>
    rw [if_neg failed] at held
    obtain ⟨held, -⟩ := held.2 rfl
    apply Ends.failed
    constructor
    case held =>
      change Held fw c.statIrbHandle.toList _
      rw [h.handler]
      exact held
    case slots => exact h.slots

/-- The ring of data requests is made. -/
theorem Stage.prepareDataReqBdr (h : Stage fw b rings c) (new : .datReq ∉ rings)
    (allocated : Bool) :
    Ends (Stage fw b (.datReq :: rings)) (Part fw) (c.prepareDataReqBdr fw allocated) := by
  have unprepared : c.tx.prepared = false := by
    have e := h.ready .datReq (by rintro ⟨⟩)
    rwa [decide_eq_false new] at e
  have held := h.held.prepareDataReqBdr unprepared allocated
  unfold Card.prepareDataReqBdr at held ⊢
  split
  case isTrue made =>
    rw [if_pos made] at held
    apply Ends.ok
    constructor
    case held => exact (held.1 rfl).1
    case log => exact h.log
    case ready =>
      intro r other
      have before := h.ready r other
      cases r with
      | datReq => simp [prepared, TxData.prepareDataReqBdr]
      | _ => simpa [prepared, allocMirror] using before
    case handler => exact h.handler
    case slots => exact h.slots
    case pool => exact fun _ => ⟨rfl, rfl⟩
    case nofBds => exact fun mem => h.nofBds ((List.mem_cons.1 mem).resolve_left (by rintro ⟨⟩))
  case isFalse failed =>
    rw [if_neg failed] at held
    apply Ends.failed
    constructor
    case held =>
      change Held fw c.statIrbHandle.toList _
      rw [h.handler]
      exact held.2 rfl
    case slots => exact h.slots

/-- The ring of data indications is made. -/
theorem Stage.prepareDataIndBdr (h : Stage fw b rings c) (new : .datInd ∉ rings)
    (allocated : Bool) :
    Ends (Stage fw b (.datInd :: rings)) (Part fw) (c.prepareDataIndBdr fw allocated) := by
  have unprepared : c.rx.ring = false := by
    have e := h.ready .datInd (by rintro ⟨⟩)
    rwa [decide_eq_false new] at e
  have held := h.held.prepareDataIndBdr unprepared allocated
  unfold Card.prepareDataIndBdr at held ⊢
  split
  case isTrue made =>
    rw [if_pos made] at held
    apply Ends.ok
    constructor
    case held => exact (held.1 rfl).1
    case log => exact h.log
    case ready =>
      intro r other
      have before := h.ready r other
      cases r with
      | datInd => simp [prepared, RxData.prepareDataIndBdr]
      | _ => simpa [prepared, allocMirror] using before
    case handler => exact h.handler
    case slots => exact fun _ => rfl
    case pool => exact fun mem => h.pool ((List.mem_cons.1 mem).resolve_left (by rintro ⟨⟩))
    case nofBds => exact fun _ => rfl
  case isFalse failed =>
    rw [if_neg failed] at held
    apply Ends.failed
    constructor
    case held =>
      change Held fw c.statIrbHandle.toList _
      rw [h.handler]
      exact held.2 rfl
    case slots => exact h.slots

/-- The queues and the RX buffers are made. -/
theorem Stage.setRx {rx : RxData} (h : Stage fw b rings c) (ring : rx.ring = c.rx.ring)
    (buffers : c.rx.buffers ∨ c.rx.ring) (nofBds : rx.nofBds = c.rx.nofBds) :
    Stage fw b rings { c with rx } where
  held := h.held.setRx rx ring
  log := h.log
  ready := by
    intro r ne
    rw [← h.ready r ne]
    cases r with
    | datInd => exact ring
    | _ => rfl
  handler := h.handler
  slots := fun _ => ring.trans (buffers.elim h.slots id)
  pool := h.pool
  nofBds := fun mem => nofBds.trans (h.nofBds mem)

/-- All rings but that of the logger, the last one first. -/
def dataAndControl : List Ring := [.datInd, .datReq, .dbgInd, .dbgReq, .manInd, .manReq]

/-- The steps that make the rings and the RX buffers. -/
def ringSteps : List Step :=
  [.manReqBdr, .manIndBdr, .dbgReqBdr, .dbgIndBdr, .datReqBdr, .datIndBdr, .rxQueues, .rxBuffers]

/-- The steps after the logger, but the last two. -/
def sendSteps : List Step := [.txmm, .txdm, .sendReady, .hwDepCfg, .fwLogSeverity, .fwLogMode]

theorem startOrder_eq : startOrder =
    ([Step.loadFirmware, .waitChiMagic] ++ (ringSteps ++ [Step.calibrationCache])) ++
      Step.fwLogger :: (sendSteps ++ [Step.rxPendTimer, .statReqHandler]) := by decide

theorem restoreOrder_eq : restoreOrder =
    ringSteps ++ Step.fwLogger :: (sendSteps ++ [Step.rxPendTimer, .statReqHandler]) := by decide

theorem RxData.preallocQueue_keeps (alloc : Nat → Bool) (nque count i : Nat) (ares : Bool)
    (r : RxData) : (RxData.preallocQueue alloc nque count i ares r).ring = r.ring ∧
      (RxData.preallocQueue alloc nque count i ares r).nofBds = r.nofBds := by
  induction count generalizing i ares r with
  | zero => exact ⟨rfl, rfl⟩
  | succ count ih =>
    unfold RxData.preallocQueue
    dsimp only
    split
    · split
      · exact ih _ _ _
      · exact ih _ _ _
    · exact ih _ _ _

theorem RxData.preallocQueues_keeps (alloc : Nat → Bool) (left nque bdIndex : Nat) (r : RxData) :
    (RxData.preallocQueues alloc left nque bdIndex r).ring = r.ring ∧
      (RxData.preallocQueues alloc left nque bdIndex r).nofBds = r.nofBds := by
  induction left generalizing nque bdIndex r with
  | zero => exact ⟨rfl, rfl⟩
  | succ left ih =>
    unfold RxData.preallocQueues
    obtain ⟨ring, nofBds⟩ := ih (nque + 1) _ _
    obtain ⟨ring', nofBds'⟩ := RxData.preallocQueue_keeps alloc nque _ bdIndex true
      { r with queue := Function.update r.queue nque ((r.queue nque).setSize 0) }
    exact ⟨ring.trans ring', nofBds.trans nofBds'⟩

section Made
variable {act : Card → Step → Card × Bool}
  (plain : ∀ c step, step ≠ .fwLogger →
    SameCard (c.perform fw o step).1 (act c step).1 ∧ (act c step).2 = (c.perform fw o step).2)
include plain

theorem ends_of_plain {Q F : Card → Prop} (ne : step ≠ .fwLogger)
    (h : Ends Q F (c.perform fw o step)) (congr : ∀ c c', SameCard c c' → Q c → Q c')
    (congr' : ∀ c c', SameCard c c' → F c → F c') : Ends Q F (act c step) := by
  obtain ⟨same, ok⟩ := plain c step ne
  constructor
  · intro success
    exact congr _ _ same (h.1 (ok.symm.trans success))
  · intro failure
    exact congr' _ _ same (h.2 (ok.symm.trans failure))

theorem stage_of_plain (ne : step ≠ .fwLogger)
    (h : Ends (Stage fw b rings) (Part fw) (c.perform fw o step)) :
    Ends (Stage fw b rings) (Part fw) (act c step) :=
  ends_of_plain plain ne h (fun _ _ same h => h.congr same) (fun _ _ same h => h.congr same)

theorem bdr_made (step : Step) (ring : Ring)
    (is : c.perform fw o step = c.prepareBdr ring (o.ok step))
    (ne : step ≠ .fwLogger) (control : ring ≠ .datReq ∧ ring ≠ .datInd ∧ ring ≠ .logInd)
    (new : ring ∉ rings) (h : Stage fw b rings c) :
    Ends (Stage fw b (ring :: rings)) (Part fw) (act c step) := by
  apply stage_of_plain plain ne
  rw [is]
  exact h.prepareBdr new control.1 control.2.1 control.2.2 _

theorem rings_made (h : Stage fw b [] c) :
    Ends (fun c => Stage fw b dataAndControl c ∧ c.rx.buffers) (Part fw)
      (stages act ringSteps c) := by
  apply Ends.stages_cons (bdr_made plain .manReqBdr .manReq rfl nofun (by decide) (by decide) h)
  intro c h
  apply Ends.stages_cons (bdr_made plain .manIndBdr .manInd rfl nofun (by decide) (by decide) h)
  intro c h
  apply Ends.stages_cons (bdr_made plain .dbgReqBdr .dbgReq rfl nofun (by decide) (by decide) h)
  intro c h
  apply Ends.stages_cons (bdr_made plain .dbgIndBdr .dbgInd rfl nofun (by decide) (by decide) h)
  intro c h
  have requests : Ends (Stage fw b [.datReq, .dbgInd, .dbgReq, .manInd, .manReq]) (Part fw)
      (act c .datReqBdr) :=
    stage_of_plain plain nofun (h.prepareDataReqBdr (by decide) (o.ok .datReqBdr))
  apply Ends.stages_cons requests
  intro c h
  have indications : Ends (Stage fw b dataAndControl) (Part fw) (act c .datIndBdr) :=
    stage_of_plain plain nofun (h.prepareDataIndBdr (by decide) (o.ok .datIndBdr))
  apply Ends.stages_cons indications
  intro c h
  have ring : c.rx.ring = true := h.ready .datInd nofun
  have queues : Ends (Stage fw b dataAndControl) (Part fw) (act c .rxQueues) := by
    have set : Stage fw b dataAndControl { c with rx := c.rx.rxqueSetDefaultCfg.1 } :=
      h.setRx rfl (.inr ring) rfl
    exact stage_of_plain plain nofun ⟨fun _ => set, fun _ => set.part⟩
  apply Ends.stages_cons queues
  intro c h
  have buffers : Ends (fun c => Stage fw b dataAndControl c ∧ c.rx.buffers) (Part fw)
      (act c .rxBuffers) := by
    have ring : c.rx.ring = true := h.ready .datInd nofun
    have kept := RxData.preallocQueues_keeps o.rxAlloc c.rx.nofInUse 0 0 c.rx
    have set : Stage fw b dataAndControl { c with rx := c.rx.preallocRxBuffers o.rxAlloc } :=
      h.setRx kept.1 (.inr ring) kept.2
    apply ends_of_plain plain
    case ne => exact nofun
    case h =>
      simp only [perform, h.held.access .datInd ring]
      exact .ok ⟨set, rfl⟩
    case congr => exact fun _ _ same h => ⟨h.1.congr same, same.rx ▸ h.2⟩
    case congr' => exact fun _ _ same h => h.congr same
  apply Ends.stages_cons buffers
  intro c h
  exact .stages_nil h

/-- The steps between the logger and the timer, and those before the rings. -/
def Step.idle : Step → Bool
  | .loadFirmware | .waitChiMagic | .calibrationCache | .txmm | .txdm | .sendReady | .hwDepCfg
  | .fwLogSeverity | .fwLogMode => true
  | _ => false

theorem idle_keeps {Q : Card → Prop} (congr : ∀ c c', SameCard c c' → Q c → Q c')
    (part : ∀ c, Q c → Part fw c) (idle : step.idle) (h : Q c) : Ends Q (Part fw) (act c step) := by
  apply ends_of_plain plain
  case ne =>
    rintro rfl
    cases idle
  case h =>
    have same : c.perform fw o step = (c, o.ok step) := by
      cases step with
      | loadFirmware | waitChiMagic | calibrationCache | txmm | txdm | sendReady | hwDepCfg
      | fwLogSeverity | fwLogMode => rfl
      | _ => cases idle
    rw [same]
    exact ⟨fun _ => h, fun _ => part c h⟩
  case congr => exact congr
  case congr' => exact fun _ _ same h => h.congr same

/-- All is there but the handler. -/
structure Logged (fw : Firmware) (c : Card) : Prop extends
    Stage fw fw.loggerSupported dataAndControl c where
  buffers : c.rx.buffers
  bufs : fw.loggerSupported → ∀ j, (c.logBufs j).isSome = fw.hasLogBuf j

omit plain in
theorem Logged.congr (same : SameCard c c') (h : Logged fw c) : Logged fw c' :=
  ⟨h.toStage.congr same, same.rx ▸ h.buffers, same.logBufs ▸ h.bufs⟩

/-- All that a card has once it was started or restored. -/
structure Full (fw : Firmware) (c : Card) : Prop where
  held : Held fw c.statIrbHandle.toList c
  ready : ∀ ring, c.prepared ring = (ring ≠ .logInd || fw.loggerSupported)
  bufs : fw.loggerSupported → ∀ j, (c.logBufs j).isSome = fw.hasLogBuf j
  handler : c.statIrbHandle.isSome
  timer : c.timer
  slots : c.rx.buffers ∧ c.rx.nofBds = fw.nofBds .datInd
  pool : c.tx.freeList = List.range (fw.nofBds .datReq) ∧ c.tx.usedList = []

omit plain in
theorem Full.congr (same : SameCard c c') (h : Full fw c) : Full fw c' where
  held := by
    rw [same.handler]
    exact h.held.congr same.toSameMemory
  ready := fun ring => (same.prepared ring).trans (h.ready ring)
  bufs := same.logBufs ▸ h.bufs
  handler := same.handler ▸ h.handler
  timer := same.timer.trans h.timer
  slots := same.rx ▸ h.slots
  pool := same.tx ▸ h.pool

/-- The last step. -/
theorem handler_made (h : Logged fw c) (timer : c.timer) :
    Ends (Full fw) (Part fw) (act c .statReqHandler) := by
  apply ends_of_plain plain
  case ne => rintro ⟨⟩
  case h =>
    simp only [perform, registerRequestHandler]
    split
    · apply Ends.ok
      constructor
      case held => exact ⟨h.held.account.acquire, h.held.current, h.held.there, h.held.empty⟩
      case ready =>
        intro ring
        cases ring with
        | logInd => exact h.log
        | manReq => exact h.ready .manReq (by rintro ⟨⟩)
        | manInd => exact h.ready .manInd (by rintro ⟨⟩)
        | dbgReq => exact h.ready .dbgReq (by rintro ⟨⟩)
        | dbgInd => exact h.ready .dbgInd (by rintro ⟨⟩)
        | datReq => exact h.ready .datReq (by rintro ⟨⟩)
        | datInd => exact h.ready .datInd (by rintro ⟨⟩)
      case bufs => exact h.bufs
      case handler => rfl
      case timer => exact timer
      case slots => exact ⟨h.buffers, h.nofBds (by decide)⟩
      case pool => exact h.pool (by decide)
    · exact .failed ⟨⟨h.held.account, h.held.current, h.held.there, h.held.empty⟩, h.slots⟩
  case congr => exact fun _ _ same h => h.congr same
  case congr' => exact fun _ _ same h => h.congr same

/-- The steps after the logger. -/
theorem rest_made (h : Logged fw c) :
    Ends (Full fw) (Part fw) (stages act (sendSteps ++ [Step.rxPendTimer, .statReqHandler]) c) := by
  have idle : ∀ step ∈ sendSteps, step.idle := by decide
  have before : Ends (Logged fw) (Part fw) (stages act sendSteps c) := by
    apply Ends.stages_keep _ h
    intro step mem c h
    exact idle_keeps plain (fun _ _ same h => h.congr same) (fun _ h => h.toStage.part)
      (idle step mem) h
  apply Ends.stages_append before
  intro c h
  have timer : Ends (fun c => Logged fw c ∧ c.timer) (Part fw) (act c .rxPendTimer) := by
    apply ends_of_plain plain
    case ne => exact nofun
    case h =>
      simp only [perform]
      split
      · exact .ok ⟨⟨⟨⟨h.held.account, h.held.current, h.held.there, h.held.empty⟩, h.log, h.ready,
          h.handler, h.slots, h.pool, h.nofBds⟩, h.buffers, h.bufs⟩, rfl⟩
      · exact .failed h.toStage.part
    case congr => exact fun _ _ same h => ⟨h.1.congr same, same.timer.trans h.2⟩
    case congr' => exact fun _ _ same h => h.congr same
  apply Ends.stages_cons timer
  intro c h
  apply Ends.stages_cons (handler_made plain h.1 h.2)
  intro c h
  exact .stages_nil h

end Made

/-! ## The start -/

/-- The logger changes, and nothing else that the stages are about. -/
theorem Stage.logger {b' : Bool} (h : Stage fw b rings c) (held : Held fw [] c')
    (flags : c'.flags = Function.update c.flags .logInd b') (same : Frame c c')
    (handler : c'.statIrbHandle = c.statIrbHandle) : Stage fw b' rings c' where
  held := held
  log := by rw [flags, Function.update_self]
  ready := by
    intro ring ne
    apply (prepared_setFlag flags same.tx same.rx nofun nofun ring).trans
    rw [if_neg ne]
    exact h.ready ring ne
  handler := handler.trans h.handler
  slots := same.rx ▸ h.slots
  pool := same.tx ▸ h.pool
  nofBds := same.rx ▸ h.nofBds

theorem Stage.initFwLogger (h : Stage fw false dataAndControl c) (supported : fw.loggerSupported)
    (buffers : c.rx.buffers) : Ends (Logged fw) (Part fw) (c.initFwLogger fw o) := by
  have same := initFwLogger_frame fw o c
  have handler := initFwLogger_handler fw o c
  have logger := h.held.initFwLogger (o := o) h.log
  constructor
  · intro ok
    obtain ⟨held, flags, bufs⟩ := logger.1 ok
    have stage := h.logger held flags same handler
    rw [← supported] at stage
    exact ⟨stage, same.rx ▸ buffers, fun _ => bufs⟩
  · intro failed
    obtain ⟨held, b', flags⟩ := logger.2 failed
    exact (h.logger held flags same handler).part

theorem start_logger (h : Stage fw false dataAndControl c) (buffers : c.rx.buffers) :
    Ends (Logged fw) (Part fw) (c.perform fw o .fwLogger) := by
  unfold perform
  dsimp only
  split
  case isTrue supported => exact h.initFwLogger supported buffers
  case isFalse unsupported =>
    have none : fw.loggerSupported = false := by simpa using unsupported
    exact .ok ⟨by rw [none]; exact h, buffers, fun supported => absurd supported unsupported⟩

theorem performStart_same (fw : Firmware) (o : Outcome) (c : Card) (step : Step) :
    SameCard (c.perform fw o step).1 (c.performStart fw o step).1 := by
  unfold performStart
  dsimp only
  split <;> exact ⟨⟨fun ring => by cases ring <;> rfl, rfl, rfl, rfl, rfl, rfl⟩, rfl, rfl, rfl, rfl⟩

theorem start_made (h : Stage fw false [] c) :
    Ends (Full fw) (Part fw) (stages (performStart fw o) startOrder c) := by
  have plain : ∀ (c : Card) (step : Step), step ≠ .fwLogger →
      SameCard (c.perform fw o step).1 (c.performStart fw o step).1 ∧
        (c.performStart fw o step).2 = (c.perform fw o step).2 :=
    fun c step _ => ⟨c.performStart_same fw o step, c.performStart_ok fw o step⟩
  have before : ∀ (step : Step), step.idle → ∀ c, Stage fw false [] c →
      Ends (Stage fw false []) (Part fw) (c.performStart fw o step) :=
    fun step idle c h =>
      idle_keeps plain (fun _ _ same h => h.congr same) (fun _ h => h.part) idle h
  have rings : Ends (fun c => Stage fw false dataAndControl c ∧ c.rx.buffers) (Part fw)
      (stages (performStart fw o) ([Step.loadFirmware, .waitChiMagic] ++ (ringSteps ++
        [Step.calibrationCache])) c) := by
    apply Ends.stages_cons (before .loadFirmware rfl c h)
    intro c h
    apply Ends.stages_cons (before .waitChiMagic rfl c h)
    intro c h
    apply Ends.stages_append (rings_made plain h)
    intro c h
    apply Ends.stages_cons _ fun c h => .stages_nil h
    exact idle_keeps plain (fun _ _ same h => ⟨h.1.congr same, same.rx ▸ h.2⟩) (fun _ h => h.1.part)
      rfl h
  rw [startOrder_eq]
  apply Ends.stages_append rings
  intro c h
  have logger : Ends (Logged fw) (Part fw) (c.performStart fw o .fwLogger) := by
    obtain ⟨same, ok⟩ := And.intro (c.performStart_same fw o .fwLogger)
      (c.performStart_ok fw o .fwLogger)
    have made : Ends (Logged fw) (Part fw) (c.perform fw o .fwLogger) := start_logger h.1 h.2
    constructor
    · exact fun success => (made.1 (ok.symm.trans success)).congr same
    · exact fun failure => (made.2 (ok.symm.trans failure)).congr same
  apply Ends.stages_cons logger
  intro c h
  exact rest_made plain h

/-! ## The restoration -/

theorem restore_logger (h : Stage fw fw.loggerSupported dataAndControl c) (buffers : c.rx.buffers) :
    Ends (Logged fw) (Part fw) (c.performRestore fw o .fwLogger) := by
  unfold performRestore
  dsimp only
  split
  case isTrue supported =>
    have same := cleanupFwLogger_frame fw c
    obtain ⟨held, flags⟩ := h.held.cleanupFwLogger (h.log.trans supported)
    have cleaned := h.logger held flags same (cleanupFwLogger_handler fw c)
    exact cleaned.initFwLogger supported (same.rx ▸ buffers)
  case isFalse unsupported =>
    exact .ok ⟨h, buffers, fun supported => absurd supported unsupported⟩

theorem restore_made (h : Stage fw fw.loggerSupported [] c) :
    Ends (Full fw) (Part fw) (stages (performRestore fw o) restoreOrder c) := by
  have plain : ∀ (c : Card) (step : Step), step ≠ .fwLogger →
      SameCard (c.perform fw o step).1 (c.performRestore fw o step).1 ∧
        (c.performRestore fw o step).2 = (c.perform fw o step).2 := by
    intro c step ne
    rw [performRestore_eq ne]
    exact ⟨⟨⟨fun _ => rfl, rfl, rfl, rfl, rfl, rfl⟩, rfl, rfl, rfl, rfl⟩, rfl⟩
  rw [restoreOrder_eq]
  apply Ends.stages_append (rings_made plain h)
  intro c h
  apply Ends.stages_cons (restore_logger h.1 h.2)
  intro c h
  exact rest_made plain h

/-- No step but that of the logger touches the logger's flag. -/
theorem perform_flag (ne : step ≠ .fwLogger) :
    (c.perform fw o step).1.flags .logInd = c.flags .logInd := by
  have bdr : ∀ (ring : Ring) (allocated : Bool), ring ≠ .logInd →
      (c.prepareBdr ring allocated).1.flags .logInd = c.flags .logInd := by
    intro ring allocated other
    unfold prepareBdr
    split
    · exact Function.update_of_ne other.symm true c.flags
    · rfl
  cases step with
  | fwLogger => exact absurd rfl ne
  | manReqBdr | manIndBdr | dbgReqBdr | dbgIndBdr => exact bdr _ _ nofun
  | datReqBdr =>
    unfold perform prepareDataReqBdr
    dsimp only
    split <;> rfl
  | datIndBdr =>
    unfold perform prepareDataIndBdr
    dsimp only
    split <;> rfl
  | rxBuffers => exact congrFun (c.access_fixed .datInd).flags _
  | rxPendTimer =>
    unfold perform
    dsimp only
    split <;> rfl
  | statReqHandler =>
    unfold perform registerRequestHandler
    dsimp only
    split <;> rfl
  | loadFirmware | waitChiMagic | rxQueues | calibrationCache | txmm | txdm | sendReady | hwDepCfg
  | fwLogSeverity | fwLogMode => rfl

/-- A restoration gets as far as the logger. -/
def Outcome.reachesLogger (o : Outcome) : Bool :=
  o.boots && [Step.manReqBdr, .manIndBdr, .dbgReqBdr, .dbgIndBdr, .datReqBdr, .datIndBdr].all o.ok

theorem reachesLogger_of_ok (boots : o.boots)
    (ok : (stages (performRestore fw o) ringSteps c).2 = true) : o.reachesLogger := by
  have bdr : ∀ (c : Card) (ring : Ring) (b : Bool), (c.prepareBdr ring b).2 = b := by
    intro c ring b
    cases b <;> rfl
  have each : ∀ step ∈ [Step.manReqBdr, .manIndBdr, .dbgReqBdr, .dbgIndBdr, .datReqBdr, .datIndBdr],
      o.ok step := by
    intro step mem
    have there : step ∈ ringSteps := by
      have sub : [Step.manReqBdr, .manIndBdr, .dbgReqBdr, .dbgIndBdr, .datReqBdr, .datIndBdr] ⊆
        ringSteps := by decide
      exact sub mem
    obtain ⟨c, done⟩ := stages_ok ok there
    cases step with
    | manReqBdr | manIndBdr | dbgReqBdr | dbgIndBdr => exact (bdr c _ _).symm.trans done
    | datReqBdr =>
      cases given : o.ok .datReqBdr with
      | true => rfl
      | false => simp [performRestore, perform, prepareDataReqBdr, given] at done
    | datIndBdr =>
      cases given : o.ok .datIndBdr with
      | true => rfl
      | false => simp [performRestore, perform, prepareDataIndBdr, given] at done
    | _ => simp at mem
  rw [Outcome.reachesLogger, boots, Bool.true_and]
  exact List.all_eq_true.2 each

/-- The logger has its mirror, if there is one. -/
def LogReady (fw : Firmware) (c : Card) : Prop := c.flags .logInd = fw.loggerSupported

theorem LogReady.stages {l : List Step} (absent : .fwLogger ∉ l) (h : LogReady fw c) :
    Ends (LogReady fw) (LogReady fw) (stages (performRestore fw o) l c) := by
  apply Ends.stages_keep _ h
  intro step mem c h
  apply Ends.of_either
  have ne : step ≠ .fwLogger := fun e => absent (e ▸ mem)
  rw [performRestore_eq ne]
  exact (perform_flag ne).trans h

theorem LogReady.logger (h : LogReady fw c) (enough : fw.loggerSupported → o.logs fw) :
    LogReady fw (c.performRestore fw o .fwLogger).1 := by
  unfold performRestore
  dsimp only
  split
  case isTrue supported => exact (initFwLogger_logs (enough supported)).trans supported.symm
  case isFalse => exact h

/-- With enough memory for the logger a restoration leaves its mirror there. -/
theorem LogReady.restore (boots : o.boots)
    (enough : fw.loggerSupported → o.reachesLogger → o.logs fw)
    (h : LogReady fw c) : LogReady fw (Lib.stages (performRestore fw o) restoreOrder c).1 := by
  have before : Ends (LogReady fw) (LogReady fw) (Lib.stages (performRestore fw o) ringSteps c) :=
    h.stages (by decide)
  have first : Ends (fun c => LogReady fw c ∧ (fw.loggerSupported → o.logs fw)) (LogReady fw)
      (Lib.stages (performRestore fw o) ringSteps c) :=
    ⟨fun ok => ⟨before.1 ok, fun supported => enough supported (reachesLogger_of_ok boots ok)⟩,
      before.2⟩
  have all : Ends (LogReady fw) (LogReady fw)
      (Lib.stages (performRestore fw o) restoreOrder c) := by
    rw [restoreOrder_eq]
    apply Ends.stages_append first
    intro c h
    apply Ends.stages_cons (.of_either (h.1.logger h.2))
    intro c h
    exact h.stages (by decide)
  exact all.either

end Wave300.Mmb.Card
