import Wave300.Mmb.Restore

/-!
# Isolation and restoration after a failure

Whatever a restoration has made when it fails, the tear-down of the next one or the stop of the card
releases it, as long as the logger's mirror is there to be looked at. So the account of a card is
kept in every state, and a restoration that succeeds leaves what the start of a card leaves.
-/

namespace Wave300.Mmb.Card

open Lib

variable {fw : Firmware} {o : Outcome} {c c' : Card} {step : Step}

/-! ## Releasing -/

theorem RxData.emptyPending_keeps (l : List Nat) (r : RxData) :
    (RxData.emptyPending l r).ring = r.ring ∧ (RxData.emptyPending l r).buffers = r.buffers := by
  induction l generalizing r with
  | nil => exact ⟨rfl, rfl⟩
  | cons i l ih => exact ih (r.incQueSize (r.mirror i).queIdx)

theorem RxData.freePreallocatedRxBuffers_keeps (r : RxData) :
    r.freePreallocatedRxBuffers.ring = r.ring ∧ r.freePreallocatedRxBuffers.buffers = false := by
  unfold RxData.freePreallocatedRxBuffers
  split
  case isTrue => exact ⟨rfl, rfl⟩
  case isFalse unset => exact ⟨rfl, by simpa using unset⟩

/-- All rings but that of the logger are released. -/
theorem cleanup_stage (held : Held fw [] c) (handler : c.statIrbHandle = none)
    (freed : c.rx.buffers = false) :
    Stage fw (c.flags .logInd) [] (((((c.cleanupBdr .manReq).cleanupBdr .manInd).cleanupBdr
      .dbgReq).cleanupBdr .dbgInd).cleanupDataReqBdr).cleanupDataIndBdr := by
  obtain ⟨held₁, flags₁⟩ := held.cleanupBdr .manReq (by rintro ⟨⟩) (by rintro ⟨⟩) (by rintro ⟨⟩)
  obtain ⟨held₂, flags₂⟩ := held₁.cleanupBdr .manInd (by rintro ⟨⟩) (by rintro ⟨⟩) (by rintro ⟨⟩)
  obtain ⟨held₃, flags₃⟩ := held₂.cleanupBdr .dbgReq (by rintro ⟨⟩) (by rintro ⟨⟩) (by rintro ⟨⟩)
  obtain ⟨held₄, flags₄⟩ := held₃.cleanupBdr .dbgInd (by rintro ⟨⟩) (by rintro ⟨⟩) (by rintro ⟨⟩)
  obtain ⟨held₅, pool, fixed₅, rx₅⟩ := held₄.cleanupDataReqBdr
  obtain ⟨held₆, ring, fixed₆, tx₆⟩ := held₅.cleanupDataIndBdr
  have frame := (((c.cleanupBdr_frame .manReq).trans (cleanupBdr_frame _ .manInd)).trans
    (cleanupBdr_frame _ .dbgReq)).trans (cleanupBdr_frame _ .dbgInd)
  have flags := fixed₆.flags.trans fixed₅.flags
  rw [flags₄, flags₃, flags₂, flags₁] at flags
  have buffers := congrArg RxData.buffers (rx₅.trans frame.rx)
  constructor
  case held => exact held₆
  case log => simp [flags]
  case ready =>
    intro r ne
    cases r with
    | logInd => exact absurd rfl ne
    | datReq => exact (congrArg TxData.prepared tx₆).trans pool
    | datInd => exact ring
    | _ => simp [prepared, flags]
  case handler =>
    rw [fixed₆.handler, fixed₅.handler, cleanupBdr_handler, cleanupBdr_handler, cleanupBdr_handler,
      cleanupBdr_handler]
    exact handler
  case slots =>
    rw [(cleanupDataIndBdr_data _).2.1]
    intro prepared
    exact absurd (freed.symm.trans (buffers.symm.trans prepared)) Bool.false_ne_true
  case pool => rintro ⟨⟩
  case nofBds => rintro ⟨⟩

/-- What a restoration starts from. -/
theorem tearDown_stage (held : Held fw [] c) (handler : c.statIrbHandle = none)
    (ring : c.rx.buffers → c.rx.ring) (slots : c.rx.buffers ∨ c.rx.Torn) :
    Stage fw (c.flags .logInd) [] c.tearDown := by
  have pending : c.rx.lbufs ≠ [] → c.rx.ring := by
    intro some
    exact ring (slots.resolve_right fun torn => some torn.lbufs)
  obtain ⟨sameRing, sameBuffers⟩ := RxData.emptyPending_keeps c.rx.lbufs c.rx
  obtain ⟨freedRing, freed⟩ := RxData.freePreallocatedRxBuffers_keeps c.rx.emptyPendingRxBuffers
  have emptied := held.setRx c.rx.emptyPendingRxBuffers sameRing
  have bare := emptied.setRx c.rx.emptyPendingRxBuffers.freePreallocatedRxBuffers freedRing
  unfold tearDown
  dsimp only
  rw [held.emptyPendingRxBuffers pending, emptied.freePreallocatedRxBuffers fun prepared =>
    sameRing.trans (ring (sameBuffers.symm.trans prepared))]
  exact cleanup_stage bare handler freed

/-- What is there is released when the card is stopped. -/
structure Stoppable (c : Card) : Prop where
  logger : c.started .fwLogger → c.flags .logInd
  buffers : c.rx.buffers → c.started .rxBuffers
  handler : c.statIrbHandle.isSome → c.started .statReqHandler

theorem Held.stopStep {extra : List Nat} (step : Step) (undo : Card → Card) (h : Held fw extra c)
    (undone : c.started step → Held fw extra (undo c)) : Held fw extra (c.stopStep step undo) := by
  unfold Card.stopStep
  split
  case isTrue set =>
    have h := undone set
    exact ⟨h.account, h.current, h.there, h.empty⟩
  case isFalse => exact h

/-- The handler is removed. -/
theorem Part.unregister (h : Part fw c) : Held fw [] c.unregisterRequestHandler :=
  ⟨h.held.account.release c.statIrbHandle.toList (.refl _) (.refl _), h.held.current, h.held.there,
    h.held.empty⟩

theorem Part.stopHandler (h : Part fw c) (stop : Stoppable c) :
    Held fw [] (c.stopStep .statReqHandler unregisterRequestHandler) := by
  unfold Card.stopStep
  split
  case isTrue =>
    have gone := h.unregister
    exact ⟨gone.account, gone.current, gone.there, gone.empty⟩
  case isFalse unset =>
    have none : c.statIrbHandle = none := by
      cases e : c.statIrbHandle with
      | none => rfl
      | some p => exact absurd (stop.handler (by simp [e])) unset
    have held := h.held
    rwa [none] at held

/-- The slots are released before their ring. -/
theorem Stoppable.freed (stop : Stoppable c) : (c.stopCard fw).rx.buffers = false := by
  have freed : (if c.started .rxBuffers then c.rx.freePreallocatedRxBuffers else
      c.rx).buffers = false := by
    split
    case isTrue => exact (RxData.freePreallocatedRxBuffers_keeps c.rx).2
    case isFalse unset =>
      cases e : c.rx.buffers with
      | true => exact absurd (stop.buffers e) unset
      | false => rfl
  rw [stopCard_rx]
  split
  · exact freed
  · exact freed

/-- The rings are released. -/
theorem Held.stopRings (h : Held fw [] c) :
    let c := c.stopStep .datIndBdr Card.cleanupDataIndBdr
    let c := c.stopStep .datReqBdr Card.cleanupDataReqBdr
    let c := c.stopStep .dbgIndBdr (Card.cleanupBdr · .dbgInd)
    let c := c.stopStep .dbgReqBdr (Card.cleanupBdr · .dbgReq)
    let c := c.stopStep .manIndBdr (Card.cleanupBdr · .manInd)
    let c := c.stopStep .manReqBdr (Card.cleanupBdr · .manReq)
    Held fw [] c := by
  intro c₁ c₂ c₃ c₄ c₅ c₆
  have h₁ : Held fw [] c₁ := h.stopStep _ _ fun _ => h.cleanupDataIndBdr.1
  have h₂ : Held fw [] c₂ := h₁.stopStep _ _ fun _ => h₁.cleanupDataReqBdr.1
  have h₃ : Held fw [] c₃ := h₂.stopStep _ _ fun _ => (h₂.cleanupBdr .dbgInd nofun nofun nofun).1
  have h₄ : Held fw [] c₄ := h₃.stopStep _ _ fun _ => (h₃.cleanupBdr .dbgReq nofun nofun nofun).1
  have h₅ : Held fw [] c₅ := h₄.stopStep _ _ fun _ => (h₄.cleanupBdr .manInd nofun nofun nofun).1
  exact h₅.stopStep _ _ fun _ => (h₅.cleanupBdr .manReq nofun nofun nofun).1

/-- A card that is stopped has its account in order. -/
theorem Part.stopCard (h : Part fw c) (stop : Stoppable c) : Held fw [] (c.stopCard fw) := by
  let c₁ := c.stopStep .statReqHandler unregisterRequestHandler
  let c₂ := c₁.stopStep .rxPendTimer fun c => { c with timer := false }
  let c₃ := { c₂ with eventsStopped := true }
  let c₄ := c₃.stopStep .fwLogger (cleanupFwLogger fw)
  let c₅ := c₄.stopStep .rxBuffers freePreallocatedRxBuffers
  have h₁ : Held fw [] c₁ := h.stopHandler stop
  have h₂ : Held fw [] c₂ :=
    h₁.stopStep _ _ fun _ => ⟨h₁.account, h₁.current, h₁.there, h₁.empty⟩
  have h₃ : Held fw [] c₃ := ⟨h₂.account, h₂.current, h₂.there, h₂.empty⟩
  have rx₃ : c₃.rx = c.rx := by
    change c₂.rx = c.rx
    simp only [c₂, c₁, stopStep_rx, (unregisterRequestHandler_frame c).rx, ite_self]
  have h₄ : Held fw [] c₄ := by
    apply h₃.stopStep
    intro set
    have flags : c₃.flags = c.flags := by
      change c₂.flags = c.flags
      unfold c₂ c₁ Card.stopStep
      split <;> split <;> rfl
    have started : c₃.started .fwLogger = c.started .fwLogger := by
      change c₂.started .fwLogger = _
      simp [c₂, c₁, stopStep_started]
    exact (h₃.cleanupFwLogger (by rw [flags]; exact stop.logger (started ▸ set))).1
  have rx₄ : c₄.rx = c.rx := by
    simp only [c₄, stopStep_rx, (cleanupFwLogger_frame fw c₃).rx, rx₃, ite_self]
  have h₅ : Held fw [] c₅ := by
    apply h₄.stopStep
    intro _
    rw [h₄.freePreallocatedRxBuffers (by rw [rx₄]; exact h.slots)]
    exact h₄.setRx _ (RxData.freePreallocatedRxBuffers_keeps _).1
  have rings := h₅.stopRings
  exact ⟨rings.account, rings.current, rings.there, rings.empty⟩

/-! ## What a failed start leaves -/

theorem perform_buffers (ne : step ≠ .rxBuffers) :
    (c.perform fw o step).1.rx.buffers = c.rx.buffers := by
  cases data : step.isData with
  | false => rw [(perform_frame data).rx]
  | true =>
    cases step with
    | rxBuffers => exact absurd rfl ne
    | datReqBdr =>
      unfold perform prepareDataReqBdr
      dsimp only
      split <;> rfl
    | datIndBdr =>
      unfold perform prepareDataIndBdr
      dsimp only
      split <;> rfl
    | rxQueues => rfl
    | rxPendTimer =>
      unfold perform
      dsimp only
      split <;> rfl
    | _ => cases data

theorem perform_handler (ne : step ≠ .statReqHandler) :
    (c.perform fw o step).1.statIrbHandle = c.statIrbHandle := by
  have bdr : ∀ (ring : Ring) (allocated : Bool),
      (c.prepareBdr ring allocated).1.statIrbHandle = c.statIrbHandle := by
    intro ring allocated
    unfold prepareBdr
    split <;> rfl
  cases step with
  | statReqHandler => exact absurd rfl ne
  | manReqBdr | manIndBdr | dbgReqBdr | dbgIndBdr => exact bdr _ _
  | datReqBdr =>
    unfold perform prepareDataReqBdr
    dsimp only
    split <;> rfl
  | datIndBdr =>
    unfold perform prepareDataIndBdr
    dsimp only
    split <;> rfl
  | rxBuffers => exact (c.access_fixed .datInd).handler
  | fwLogger =>
    unfold perform
    dsimp only
    split
    · exact initFwLogger_handler fw o c
    · rfl
  | rxPendTimer =>
    unfold perform
    dsimp only
    split <;> rfl
  | loadFirmware | waitChiMagic | rxQueues | calibrationCache | txmm | txdm | sendReady | hwDepCfg
  | fwLogSeverity | fwLogMode => rfl

/-- The buffers and the handler are undone if they are there. -/
theorem performStart_undone (fw : Firmware) (o : Outcome) (h : Stoppable c) (step : Step) :
    ((c.performStart fw o step).1.rx.buffers →
        (c.performStart fw o step).1.started .rxBuffers) ∧
      ((c.performStart fw o step).1.statIrbHandle.isSome →
        (c.performStart fw o step).1.started .statReqHandler) := by
  have same := c.performStart_same fw o step
  have ok := c.performStart_ok fw o step
  constructor
  · by_cases e : step = .rxBuffers
    · subst e
      exact fun _ => performStart_marks ok (by rintro ⟨⟩)
    · rw [same.rx, perform_buffers e, performStart_unmarked (Ne.symm e)]
      exact h.buffers
  · by_cases e : step = .statReqHandler
    · subst e
      intro there
      cases done : o.ok .statReqHandler with
      | true =>
        apply performStart_marks
        · simp [ok, perform, registerRequestHandler, done]
        · rintro ⟨⟩
      | false =>
        rw [same.handler] at there
        simp [perform, registerRequestHandler, done] at there
    · rw [same.handler, perform_handler e, performStart_unmarked (Ne.symm e)]
      exact h.handler

theorem performStart_stoppable (ne : step ≠ .fwLogger) (h : Stoppable c) :
    Stoppable (c.performStart fw o step).1 := by
  obtain ⟨buffers, handler⟩ := performStart_undone fw o h step
  apply Stoppable.mk _ buffers handler
  have flag : (c.performStart fw o step).1.flags .logInd = (c.perform fw o step).1.flags .logInd :=
    (c.performStart_same fw o step).prepared .logInd
  rw [flag, perform_flag ne, performStart_unmarked (Ne.symm ne)]
  exact h.logger

/-- A logger that could not be made is not undone. -/
theorem performStart_logger (h : Stoppable c) (unset : c.started .fwLogger = false) :
    Stoppable (c.performStart fw o .fwLogger).1 := by
  obtain ⟨buffers, handler⟩ := performStart_undone fw o h .fwLogger
  apply Stoppable.mk _ buffers handler
  have flag : (c.performStart fw o .fwLogger).1.flags .logInd =
      (c.perform fw o .fwLogger).1.flags .logInd :=
    (c.performStart_same fw o .fwLogger).prepared .logInd
  intro set
  rw [performStart_started, performStart_ok] at set
  split at set
  case isTrue ok =>
    have supported : fw.loggerSupported := by simpa using set
    rw [flag]
    simp only [perform, supported, if_true] at ok ⊢
    exact initFwLogger_flag ok
  case isFalse => exact absurd (unset.symm.trans set) Bool.false_ne_true

/-- However far a start gets, it can be undone. -/
theorem start_stoppable (h : Stoppable c) (unset : c.started .fwLogger = false) :
    Stoppable (stages (performStart fw o) startOrder c).1 := by
  have before : Ends (fun c => Stoppable c ∧ c.started .fwLogger = false) Stoppable
      (stages (performStart fw o)
        ([Step.loadFirmware, .waitChiMagic] ++ (ringSteps ++ [Step.calibrationCache])) c) := by
    apply Ends.stages_keep _ ⟨h, unset⟩
    intro step mem c h
    have ne : step ≠ .fwLogger := by
      rintro rfl
      exact absurd mem (by decide)
    have after : Stoppable (c.performStart fw o step).1 := performStart_stoppable ne h.1
    exact ⟨fun _ => ⟨after, (performStart_unmarked (Ne.symm ne)).trans h.2⟩, fun _ => after⟩
  have all : Ends Stoppable Stoppable (stages (performStart fw o) startOrder c) := by
    rw [startOrder_eq]
    apply Ends.stages_append before
    intro c h
    apply Ends.stages_cons (.of_either (performStart_logger h.1 h.2))
    intro c h
    apply Ends.stages_keep _ h
    intro step mem c h
    apply Ends.of_either
    apply performStart_stoppable _ h
    rintro rfl
    exact absurd mem (by decide)
  exact all.either

/-- The logger is undone only if there is one. -/
theorem start_supported (h : c.started .fwLogger → fw.loggerSupported) :
    (stages (performStart fw o) startOrder c).1.started .fwLogger → fw.loggerSupported := by
  have all : Ends (fun c : Card => c.started .fwLogger → fw.loggerSupported)
      (fun c : Card => c.started .fwLogger → fw.loggerSupported)
      (stages (performStart fw o) startOrder c) := by
    apply Ends.stages_keep _ h
    intro step _ c h
    apply Ends.of_either
    rw [performStart_started]
    split
    · by_cases e : step = .fwLogger
      · subst e
        simp
      · rwa [Function.update_of_ne (Ne.symm e)]
    · exact h
  exact all.either

/-! ## Every state of a card -/

/-- The handlers that are registered. -/
def handlers (c : Card) : List Nat := if c.phase = .down then [] else c.statIrbHandle.toList

/-- What holds of the memory of a card, by how far it is. -/
structure Kept (fw : Firmware) (c : Card) : Prop where
  held : Held fw c.handlers c
  slots : c.rx.buffers → c.rx.ring
  log : c.phase = .up ∨ c.phase = .isolated → LogReady fw c
  marks : c.phase = .up ∨ c.phase = .isolated →
    c.started .rxBuffers ∧ c.started .statReqHandler ∧ (c.started .fwLogger → fw.loggerSupported)
  alone : c.phase = .isolated → c.statIrbHandle = none
  fresh : c.phase = .fresh → c = Card.init

theorem Kept.init : Kept fw init where
  held := .init
  slots := nofun
  log := nofun
  marks := nofun
  alone := nofun
  fresh := fun _ => rfl

theorem Kept.part (h : Kept fw c) (running : c.phase = .up ∨ c.phase = .isolated) : Part fw c := by
  have registered : c.handlers = c.statIrbHandle.toList := by
    apply if_neg
    intro down
    rw [down] at running
    exact running.elim nofun nofun
  exact ⟨registered ▸ h.held, h.slots⟩

theorem Kept.stoppable (h : Kept fw c) (running : c.phase = .up ∨ c.phase = .isolated) :
    Stoppable c := by
  obtain ⟨buffers, handler, logger⟩ := h.marks running
  exact ⟨fun set => (h.log running).trans (logger set), fun _ => buffers, fun _ => handler⟩

/-- A card that is stopped, or whose start failed. -/
theorem Part.kept_down (h : Part fw c) (stop : Stoppable c) : Kept fw (c.stopCard fw) where
  held := h.stopCard stop
  slots := fun prepared => absurd (stop.freed.symm.trans prepared) Bool.false_ne_true
  log := fun running => running.elim nofun nofun
  marks := fun running => running.elim nofun nofun
  alone := nofun
  fresh := nofun

theorem init_stage : Stage fw false [] init where
  held := .init
  log := rfl
  ready := by
    intro ring _
    cases ring <;> rfl
  handler := rfl
  slots := nofun
  pool := nofun
  nofBds := nofun

theorem Kept.startCard (o : Outcome) : Kept fw (Card.init.startCard fw o).1 := by
  have made : Ends (Full fw) (Part fw) (stages (performStart fw o) startOrder Card.init) :=
    start_made init_stage
  have stop : Stoppable (stages (performStart fw o) startOrder Card.init).1 :=
    start_stoppable ⟨nofun, nofun, nofun⟩ rfl
  have marks : Ends (fun c' : Card => ∀ s, (s ∈ startOrder ∨ Card.init.started s) → s ≠ .fwLogger →
      c'.started s) (fun _ => True) (stages (performStart fw o) startOrder Card.init) :=
    start_marked
  unfold Card.startCard
  dsimp only
  split
  case isTrue ok =>
    have full := made.1 ok
    have marked := marks.1 ok
    constructor
    case held =>
      exact ⟨full.held.account, full.held.current, full.held.there, full.held.empty⟩
    case slots => exact fun _ => full.ready .datInd
    case log => exact fun _ => full.ready .logInd
    case marks =>
      intro _
      refine ⟨marked .rxBuffers (.inl (by decide)) nofun,
        marked .statReqHandler (.inl (by decide)) nofun, start_supported nofun⟩
    case alone => exact nofun
    case fresh => exact nofun
  case isFalse failed => exact (made.2 (by simpa using failed)).kept_down stop

theorem Kept.isolate (h : Kept fw c) (running : c.phase = .up ∨ c.phase = .isolated) :
    Kept fw c.isolate := by
  have gone := (h.part running).unregister
  constructor
  case held => exact ⟨gone.account, gone.current, gone.there, gone.empty⟩
  case slots => exact h.slots
  case log => exact fun _ => h.log running
  case marks => exact fun _ => h.marks running
  case alone => exact fun _ => rfl
  case fresh => exact nofun

/-- What a restoration starts from, once the firmware runs again. -/
theorem Kept.torn (h : Kept fw c) (lived : Lived c) (isolated : c.phase = .isolated) :
    Stage fw fw.loggerSupported [] { c with phase := .up, eventsStopped := false }.tearDown := by
  have none := h.alone isolated
  have held := (h.part (.inr isolated)).held
  rw [none] at held
  have log : c.flags .logInd = fw.loggerSupported := h.log (.inr isolated)
  rw [← log]
  exact tearDown_stage (c := { c with phase := .up, eventsStopped := false })
    ⟨held.account, held.current, held.there, held.empty⟩ none h.slots (lived.slots (.inr isolated))

/-- A restoration that succeeds leaves all that a card has. -/
theorem Kept.restore_full (h : Kept fw c) (lived : Lived c) (isolated : c.phase = .isolated)
    (ok : (c.restore fw o).2 = true) : Full fw (c.restore fw o).1 := by
  have made : Ends (Full fw) (Part fw) (stages (performRestore fw o) restoreOrder
      { c with phase := .up, eventsStopped := false }.tearDown) :=
    restore_made (h.torn lived isolated)
  unfold Card.restore at ok ⊢
  dsimp only at ok ⊢
  split at ok
  case isTrue boots =>
    rw [if_pos boots]
    exact made.1 ok
  case isFalse => cases ok

/-- What is to be undone does not change in a restoration. -/
theorem restore_keeps (fw : Firmware) (o : Outcome) (c : Card) :
    (c.restore fw o).1.phase = .up ∧ (c.restore fw o).1.started = c.started := by
  have torn := tearDown_keeps { c with phase := .up, eventsStopped := false }
  generalize e : { c with phase := .up, eventsStopped := false } = c' at torn
  have same : Ends (fun d : Card => d.phase = .up ∧ d.started = c.started)
      (fun d : Card => d.phase = .up ∧ d.started = c.started)
      (stages (performRestore fw o) restoreOrder c'.tearDown) := by
    apply Ends.stages_keep
    · intro step _ d same
      have kept := d.performRestore_keeps fw o step
      exact .of_either ⟨kept.1.trans same.1, kept.2.trans same.2⟩
    · subst e
      exact torn
  unfold Card.restore
  dsimp only
  rw [e]
  split
  · exact same.either
  · subst e
    exact ⟨rfl, rfl⟩

/-- A restoration that gets the memory for the logger, if it gets that far. -/
theorem Kept.restore (h : Kept fw c) (lived : Lived c) (isolated : c.phase = .isolated)
    (enough : fw.loggerSupported → o.reachesLogger → o.logs fw) : Kept fw (c.restore fw o).1 := by
  have marks := h.marks (.inr isolated)
  have log := h.log (.inr isolated)
  have torn := h.torn lived isolated
  obtain ⟨phase, started⟩ := restore_keeps fw o c
  have after : Part fw (c.restore fw o).1 ∧ LogReady fw (c.restore fw o).1 := by
    unfold Card.restore
    dsimp only
    split
    case isTrue boots =>
      have made : Ends (Full fw) (Part fw) (stages (performRestore fw o) restoreOrder
          { c with phase := .up, eventsStopped := false }.tearDown) := restore_made torn
      have part := made.mono (fun _ full => Part.mk full.held fun _ => full.ready .datInd)
        (fun _ h => h)
      have ready : LogReady fw { c with phase := .up, eventsStopped := false }.tearDown := torn.log
      exact ⟨part.either, ready.restore boots enough⟩
    case isFalse =>
      have part := h.part (.inr isolated)
      exact ⟨⟨⟨part.held.account, part.held.current, part.held.there, part.held.empty⟩, h.slots⟩,
        log⟩
  generalize (c.restore fw o).1 = d at phase started after
  constructor
  case held =>
    rw [handlers, phase]
    exact after.1.held
  case slots => exact after.1.slots
  case log => exact fun _ => after.2
  case marks =>
    intro _
    rw [started]
    exact marks
  case alone => exact fun alone => nomatch phase.symm.trans alone
  case fresh => exact fun fresh => nomatch phase.symm.trans fresh

/-- The pool or the slots change while their rings are there. -/
theorem Kept.change {tx : TxData} {rx : RxData} (h : Kept fw c) (started : c.phase ≠ .fresh)
    (prepared : tx.prepared = c.tx.prepared) (ring : rx.ring = c.rx.ring)
    (buffers : rx.buffers = c.rx.buffers) : Kept fw { c with tx, rx } where
  held := (h.held.setRx rx ring).setTx tx prepared
  slots := by
    dsimp only
    rw [buffers, ring]
    exact h.slots
  log := h.log
  marks := h.marks
  alone := h.alone
  fresh := fun fresh => absurd fresh started

theorem RxData.recoverRxBuffers_ring (alloc : Nat → Bool) (left : Nat) (r : RxData) :
    (RxData.recoverRxBuffers alloc left r).ring = r.ring := by
  induction left generalizing r with
  | zero => rfl
  | succ left ih =>
    unfold RxData.recoverRxBuffers
    split
    · rfl
    · dsimp only
      split
      · exact ih _
      · rfl

/-- A restoration that gets to the logger has the memory for it. -/
def LogMemory (fw : Firmware) : Label → Prop
  | .restore o => fw.loggerSupported → o.reachesLogger → o.logs fw
  | _ => True

instance (fw : Firmware) : DecidablePred (LogMemory fw)
  | .restore _ => inferInstanceAs (Decidable (_ → _ → _))
  | .start _ | .isolate | .stopMacEvents | .stop | .getMsgToSend _ | .sendData .. => .isTrue trivial
  | .releaseMsgToSend _ | .datCfm .. | .datInd .. | .recoverRx _ => .isTrue trivial

theorem Kept.next (h : Kept fw c) (lived : Lived c) {label : Label} (enabled : c.Enabled label)
    (enough : LogMemory fw label) : Kept fw (c.step fw label) := by
  have fresh : c.phase = .fresh → c.tx.held = [] ∧ c.tx.sent = [] ∧ c.rx.buffers = false ∧
      c.timer = false := by
    intro fresh
    rw [h.fresh fresh]
    exact ⟨rfl, rfl, rfl, rfl⟩
  cases label with
  | start o =>
    rw [h.fresh enabled]
    exact .startCard o
  | isolate => exact h.isolate enabled
  | restore o => exact h.restore lived enabled.1 enough
  | stopMacEvents =>
    have started : c.phase ≠ .fresh := fun fresh =>
      enabled.elim (fun up => nomatch fresh.symm.trans up) fun isolated =>
        nomatch fresh.symm.trans isolated
    exact ⟨⟨h.held.account, h.held.current, h.held.there, h.held.empty⟩, h.slots, h.log, h.marks,
      h.alone, fun fresh => absurd fresh started⟩
  | stop => exact (h.part enabled.1).kept_down (h.stoppable enabled.1)
  | getMsgToSend vapHandle =>
    simp only [Card.step]
    cases free : c.tx.freeList with
    | nil =>
      have same : (c.tx.getMsgToSend vapHandle).1 = c.tx := by
        simp [TxData.getMsgToSend, TxData.getMsgFromDataPool, free]
      simp only [List.isEmpty_nil, if_true, same]
      exact h
    | cons i rest =>
      have mem : i ∈ c.tx.freeList ++ c.tx.usedList := by simp [free]
      have started : c.phase ≠ .fresh := fun fresh => by
        rw [h.fresh fresh] at mem
        cases mem
      simp only [List.isEmpty_cons, Bool.false_eq_true, if_false,
        h.held.access .datReq (lived.tx.prepared_of_mem mem)]
      exact h.change started (getMsgToSend_prepared c.tx vapHandle) rfl rfl
  | sendData i data =>
    have started : c.phase ≠ .fresh := fun begun => by
      have held : i ∈ c.tx.held := enabled
      rw [(fresh begun).1] at held
      cases held
    simp only [Card.step, h.held.access .datReq (lived.tx.prepared_of_mem
      (List.mem_append_right _ (lived.tx.used_of_held enabled)))]
    exact h.change started rfl rfl rfl
  | releaseMsgToSend i =>
    have started : c.phase ≠ .fresh := fun begun => by
      have held : i ∈ c.tx.held := enabled
      rw [(fresh begun).1] at held
      cases held
    simp only [Card.step, h.held.access .datReq (lived.tx.prepared_of_mem
      (List.mem_append_right _ (lived.tx.used_of_held enabled)))]
    exact h.change started rfl rfl rfl
  | datCfm i status nofRetries =>
    have started : c.phase ≠ .fresh := fun begun => by
      have sent : i ∈ c.tx.sent := enabled
      rw [(fresh begun).2.1] at sent
      cases sent
    simp only [Card.step, receiveDatCfm, h.held.access .datReq (lived.tx.prepared_of_mem
      (List.mem_append_right _ (lived.tx.used_of_sent enabled)))]
    split
    · exact h
    · exact h.change started rfl rfl rfl
  | datInd i allocated =>
    have started : c.phase ≠ .fresh := fun begun =>
      Bool.false_ne_true ((fresh begun).2.2.1.symm.trans enabled.1)
    simp only [Card.step, receiveDatInd, h.held.access .datInd (h.slots enabled.1)]
    split
    · exact h
    · apply h.change started rfl
      · cases allocated <;> rfl
      · exact RxData.handleDatInd_buffers _ _ _
  | recoverRx alloc =>
    have prepared := (lived.timer enabled).1
    have started : c.phase ≠ .fresh := fun begun =>
      Bool.false_ne_true ((fresh begun).2.2.1.symm.trans prepared)
    simp only [Card.step, h.held.access_if fun _ => show c.prepared .datInd from h.slots prepared]
    exact h.change started rfl (RxData.recoverRxBuffers_ring _ _ _)
      (RxData.recoverRxBuffers_buffers _ _ _)

/-- The runs in which every restoration that gets to the logger has the memory for it. -/
def Spared (fw : Firmware) : Card → Prop :=
  Runs (Card.step fw) (fun c label => c.Enabled label ∧ LogMemory fw label) init

theorem Spared.kept (run : Spared fw c) : Kept fw c ∧ Lived c := by
  apply Runs.invariant run ⟨.init, .init⟩
  rintro c label ⟨kept, lived⟩ ⟨enabled, enough⟩
  exact ⟨kept.next lived enabled enough, lived.next enabled⟩

/-- Two cards have the same, whatever the numbers of it. -/
structure SameResources (fw : Firmware) (c c' : Card) : Prop where
  rings : ∀ ring, c'.prepared ring = c.prepared ring
  logBufs : ∀ i < fw.nofBds .logInd, (c'.logBufs i).isSome = (c.logBufs i).isSome
  handler : c'.statIrbHandle.isSome = c.statIrbHandle.isSome
  timer : c'.timer = c.timer
  pool : c'.tx.freeList = c.tx.freeList ∧ c'.tx.usedList = c.tx.usedList
  slots : c'.rx.buffers = c.rx.buffers ∧ c'.rx.nofBds = c.rx.nofBds

theorem Full.same (h : Full fw c) (h' : Full fw c') : SameResources fw c c' where
  rings := fun ring => (h'.ready ring).trans (h.ready ring).symm
  logBufs := by
    intro i lt
    cases supported : fw.loggerSupported with
    | true => rw [h'.bufs supported, h.bufs supported]
    | false =>
      have unset := (h.ready .logInd).trans supported
      have unset' := (h'.ready .logInd).trans supported
      rw [h.held.empty unset i lt, h'.held.empty unset' i lt]
  handler := by rw [h'.handler, h.handler]
  timer := h'.timer.trans h.timer.symm
  pool := ⟨h'.pool.1.trans h.pool.1.symm, h'.pool.2.trans h.pool.2.symm⟩
  slots := ⟨h'.slots.1.trans h.slots.1.symm, h'.slots.2.trans h.slots.2.symm⟩

theorem startCard_full (ok : (Card.init.startCard fw o).2 = true) :
    Full fw (Card.init.startCard fw o).1 := by
  have made : Ends (Full fw) (Part fw) (stages (performStart fw o) startOrder Card.init) :=
    start_made init_stage
  unfold Card.startCard at ok ⊢
  dsimp only at ok ⊢
  split at ok
  case isTrue done =>
    have full := made.1 done
    rw [if_pos done]
    exact ⟨⟨full.held.account, full.held.current, full.held.there, full.held.empty⟩, full.ready,
      full.bufs, full.handler, full.timer, full.slots, full.pool⟩
  case isFalse => cases ok

/-- When every restoration that gets to the logger has the memory for it, no mirror is accessed that
is not there, nothing is released twice, what a card does not have any more was released, and a
restoration that succeeds leaves what the start of a card leaves. -/
theorem restore_retry_safe (run : Spared fw c) :
    c.stale = [] ∧ Accounted c.made (c.handlers ++ (c.logBuffers fw ++ c.mirrors)) c.gone ∧
    (c.tx.passedBufs ++ c.tx.freed).Nodup ∧ (c.rx.up ++ c.rx.freed).Nodup ∧
    ∀ o, c.Enabled (.restore o) → (c.restore fw o).2 = true →
      let c' := (c.restore fw o).1
      Accounted c'.made (c'.statIrbHandle.toList ++ (c'.logBuffers fw ++ c'.mirrors)) c'.gone ∧
      c'.stale = [] ∧
      ∀ o', (init.startCard fw o').2 = true → SameResources fw (init.startCard fw o').1 c' := by
  obtain ⟨kept, lived⟩ := run.kept
  refine ⟨kept.held.current, kept.held.account, lived.tx.bufs.gone_nodup, lived.rx.bufs.gone_nodup,
    ?_⟩
  intro o enabled ok c'
  have full : Full fw c' := kept.restore_full lived enabled.1 ok
  refine ⟨full.held.account, full.held.current, ?_⟩
  intro o' started
  exact (startCard_full started).same full

/-- A restoration fails at its last step and is repeated: the handler and everything else of the
first start was released once. -/
theorem restore_retry_safe_twice :
    let late : Outcome := { Outcome.fine with ok := fun s => s ≠ .statReqHandler }
    let c := [Label.start .fine, .isolate, .restore late, .isolate].foldl
      (Card.step (small 1)) init
    c.stale = [] ∧ (c.restore (small 1) .fine).2 = true ∧
      SameResources (small 1) (init.startCard (small 1) .fine).1 (c.restore (small 1) .fine).1 := by
  intro late c
  have run : Spared (small 1) c := Runs.of_allowed (by decide)
  obtain ⟨stale, -, -, -, again⟩ := restore_retry_safe run
  have ok : (c.restore (small 1) .fine).2 = true := by decide
  exact ⟨stale, ok, (again .fine (by decide) ok).2.2 .fine (by decide)⟩

/-- The second buffer of the logger cannot be allocated: the mirror is freed, and read when the card
is stopped. -/
theorem logger_mirror_read_after_free :
    ¬ ∀ fw c, Reachable fw c → c.stale = [] ∧ c.gone.Nodup := by
  intro claim
  let short : Outcome := { Outcome.fine with logAlloc := fun i => i < 1 }
  let c := [Label.start .fine, .isolate, .restore short, .stop].foldl (Card.step (small 2)) init
  have run : Reachable (small 2) c := Runs.of_allowed (by decide)
  have stale : c.stale ≠ [] := by decide
  exact stale (claim _ _ run).1

end Wave300.Mmb.Card
