import Wave300.Mmb.DataRings

/-!
# Pending slots of a stopped card

A pending slot is an element of the mirror array of data indications. The tear-down of a restoration
empties the list of pending slots before it frees the array. The stop of the card frees the array
only, so what is pending then stays in the list for good, up to `mtlk_hw_mmb_cleanup_card`, which
asserts that the list is empty.
-/

namespace Wave300.Mmb.Card

open Lib

variable {fw : Firmware} {o : Outcome} {c c' : Card} {step : Step} {label : Label}

/-- Some slot is pending while the array with its element is not there. -/
def Dangling (c : Card) : Prop := c.rx.ring = false ∧ c.rx.lbufs ≠ []

instance (c : Card) : Decidable c.Dangling := inferInstanceAs (Decidable (_ ∧ _))

/-- `mtlk_lslist_cleanup` in `mtlk_hw_mmb_cleanup_card` -/
def cleanupCard (c : Card) : Card :=
  { c with rx := { c.rx with asserts := c.rx.asserts && c.rx.lbufs.isEmpty } }

/-! ## What is undone by the stop -/

/-- All the steps of the start of a running card are to be undone. -/
def Marked (c : Card) : Prop :=
  c.phase = .up ∨ c.phase = .isolated → ∀ s, s ≠ .fwLogger → c.started s

theorem Marked.congr (h : Marked c) (phase : c'.phase = c.phase)
    (started : c'.started = c.started) : Marked c' := by
  rw [Marked, phase, started]
  exact h

theorem Marked.startCard (o : Outcome) : Marked (c.startCard fw o).1 := by
  have marks : Ends (fun c' : Card => ∀ s, (s ∈ startOrder ∨ c.started s) → s ≠ .fwLogger →
      c'.started s) (fun _ => True) (stages (performStart fw o) startOrder c) := start_marked
  unfold Card.startCard
  dsimp only
  split
  case isTrue ok =>
    intro _ s undone
    apply marks.1 ok s (.inl _) undone
    cases s <;> decide
  case isFalse =>
    rintro (up | isolated)
    · cases up
    · cases isolated

theorem Marked.restore (h : Marked c) (isolated : c.phase = .isolated) (o : Outcome) :
    Marked (c.restore fw o).1 := by
  have marks := h (.inr isolated)
  unfold Card.restore
  dsimp only
  split
  case isTrue =>
    have keeps := tearDown_keeps { c with phase := .up, eventsStopped := false }
    have same : Ends (fun c' : Card => c'.started = c.started)
        (fun c' : Card => c'.started = c.started) (stages (performRestore fw o) restoreOrder
          (tearDown { c with phase := .up, eventsStopped := false })) := by
      apply Ends.stages_keep
      · intro step _ c' same
        exact .of_either ((c'.performRestore_keeps fw o step).2.trans same)
      · exact keeps.2
    intro _
    rw [same.either]
    exact marks
  case isFalse => exact fun _ => marks

theorem Marked.next (h : Marked c) (enabled : c.Enabled label) : Marked (c.step fw label) := by
  cases label with
  | start o => exact .startCard o
  | isolate =>
    intro _
    exact h enabled
  | restore o => exact h.restore enabled.1 o
  | stopMacEvents => exact h
  | stop =>
    rintro (up | isolated)
    · cases up
    · cases isolated
  | getMsgToSend vapHandle =>
    have same := c.access_if_frame c.tx.freeList.isEmpty .datReq
    exact h.congr same.phase same.started
  | sendData i data =>
    have same := c.access_frame .datReq
    exact h.congr same.phase same.started
  | releaseMsgToSend i =>
    have same := c.access_frame .datReq
    exact h.congr same.phase same.started
  | datCfm i status nofRetries =>
    have same := c.access_frame .datReq
    simp only [Card.step, receiveDatCfm]
    split
    · exact h
    · exact h.congr same.phase same.started
  | datInd i allocated =>
    have same := c.access_frame .datInd
    simp only [Card.step, receiveDatInd]
    split <;> exact h.congr same.phase same.started
  | recoverRx alloc =>
    have same := c.access_if_frame c.rx.lbufs.isEmpty .datInd
    exact h.congr same.phase same.started

theorem Reachable.marked (run : Reachable fw c) : Marked c :=
  Runs.invariant run (by rintro (up | isolated) <;> contradiction)
    fun _ _ h enabled => h.next enabled

/-! ## The stop, and what follows -/

/-- The stop frees the buffers and the array, and leaves the list. -/
theorem stopCard_lists (fw : Firmware) (h : Marked c)
    (running : c.phase = .up ∨ c.phase = .isolated) :
    (c.stopCard fw).rx.ring = false ∧ (c.stopCard fw).rx.buffers = false ∧
      (c.stopCard fw).rx.lbufs = c.rx.lbufs ∧ (c.stopCard fw).rx.asserts = c.rx.asserts ∧
        (c.stopCard fw).timer = false := by
  have slots := h running .datIndBdr (by rintro ⟨⟩)
  have buffers := h running .rxBuffers (by rintro ⟨⟩)
  have timer := h running .rxPendTimer (by rintro ⟨⟩)
  rw [stopCard_rx, if_pos slots, if_pos buffers, stopCard_timer, if_pos timer]
  refine ⟨rfl, ?_, ?_, ?_, rfl⟩
  all_goals
    simp only [RxData.cleanupDataIndBdr, RxData.freePreallocatedRxBuffers]
    split <;> simp_all

/-- Of a stopped card the slots stay as they are. -/
structure Over (r : RxData) (c : Card) : Prop where
  phase : c.phase = .down
  timer : c.timer = false
  rx : c.rx = r

theorem Over.next {r : RxData} (h : Over r c) (torn : r.buffers = false)
    (enabled : c.Enabled label) : Over r (c.step fw label) := by
  have frame : ∀ {c'} {tx : TxData}, Frame c c' → Over r { c' with tx } := fun same =>
    ⟨same.phase.trans h.phase, same.timer.trans h.timer, same.rx.trans h.rx⟩
  have stopped : ¬ (c.phase = .up ∨ c.phase = .isolated) := by
    rw [h.phase]
    rintro (up | isolated)
    · cases up
    · cases isolated
  cases label with
  | start o =>
    have up := h.phase.symm.trans enabled
    cases up
  | isolate => exact absurd enabled stopped
  | restore o => exact absurd (.inr enabled.1) stopped
  | stopMacEvents => exact absurd enabled stopped
  | stop => exact absurd enabled.1 stopped
  | getMsgToSend vapHandle => exact frame (c.access_if_frame c.tx.freeList.isEmpty .datReq)
  | sendData i data => exact frame (c.access_frame .datReq)
  | releaseMsgToSend i => exact frame (c.access_frame .datReq)
  | datCfm i status nofRetries =>
    simp only [Card.step, receiveDatCfm]
    split
    · exact h
    · exact frame (c.access_frame .datReq)
  | datInd i allocated =>
    have buffers := enabled.1
    rw [h.rx, torn] at buffers
    cases buffers
  | recoverRx alloc =>
    have on := h.timer.symm.trans enabled
    cases on

theorem Runs.same {r : RxData} (start : Over r c) (torn : r.buffers = false)
    (run : Runs (Card.step fw) Enabled c c') : Over r c' :=
  run.invariant start fun _ _ h enabled => h.next torn enabled

/-- After the stop of a running card the list is empty, nothing in it is ever of an array that was
freed, and the assertion of the clean-up holds, exactly when nothing is pending at the stop. -/
theorem stop_drained_iff (run : Reachable fw c) (enabled : c.Enabled .stop) :
    ((c.step fw .stop).rx.lbufs = [] ∧
      ∀ c', Runs (Card.step fw) Enabled (c.step fw .stop) c' →
        ¬ c'.Dangling ∧ c'.cleanupCard.rx.asserts = true) ↔
      c.rx.lbufs = [] := by
  obtain ⟨ring, buffers, lbufs, asserts, timer⟩ := stopCard_lists fw run.marked enabled.1
  constructor
  · exact fun clean => lbufs.symm.trans clean.1
  · intro drained
    have empty : (c.step fw .stop).rx.lbufs = [] := lbufs.trans drained
    refine ⟨empty, ?_⟩
    intro c' later
    have same : Over (c.step fw .stop).rx c' := Runs.same ⟨rfl, timer, rfl⟩ buffers later
    rw [← same.rx] at empty
    refine ⟨fun dangling => dangling.2 empty, ?_⟩
    have held : c'.rx.asserts = true := by
      rw [same.rx]
      exact asserts.trans run.lived.rx.asserted
    simp [cleanupCard, held, empty]

/-- The buffer of one slot could not be allocated, and the timer finds one before the stop. -/
theorem stop_drained_recovered :
    let few : Outcome := { Outcome.fine with rxAlloc := fun i => i < 4 }
    let c := [Label.start few, .recoverRx fun _ => true].foldl (Card.step (small 5)) init
    (c.step (small 5) .stop).rx.lbufs = [] := by
  intro few c
  have run : Reachable (small 5) c := Runs.of_allowed (by decide)
  exact ((stop_drained_iff run (by decide)).2 (by decide)).1

/-- The same card, stopped before the timer ran. -/
theorem stop_leaves_pending :
    ¬ ∀ fw c, Reachable fw c → c.Enabled .stop → (c.step fw .stop).rx.lbufs = [] := by
  intro claim
  let few : Outcome := { Outcome.fine with rxAlloc := fun i => i < 4 }
  let c := [Label.start few].foldl (Card.step (small 5)) init
  have run : Reachable (small 5) c := Runs.of_allowed (by decide)
  have pending : (c.step (small 5) .stop).rx.lbufs ≠ [] := by decide
  exact pending (claim _ _ run (by decide))

end Wave300.Mmb.Card
