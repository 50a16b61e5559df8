import Wave300.Addba.Frame
import Wave300.Addba.System
import Wave300.Rod.Bookkeeping

/-!
# The window a peer asks for

From the size in an ADDBA request to the slots of the reordering queue: the window passes
`frame.c`, `addba.c` and `stadb.c` before `rod.c` uses it as a modulus.
-/

namespace Wave300.Addba

variable {α : Type}

/-- `_mtlk_sta_addba_start_reordering` and `_mtlk_sta_addba_stop_reordering`: what the wrap
API of a station does to the queue of the TID. -/
def staOnOut (now : Nat) (res : Rod.WssResult) (q : Rod.Queue α) : Out → Rod.Queue α
  | .startReordering ssn winSize => Rod.mtlkCreateRodQueue now res q winSize ssn
  | .stopReordering => if q.used then Rod.mtlkClearRodQueue now q else q
  | _ => q

/-- The reorderings started in a log, each with its SSN and its window. -/
def started (log : List Out) : List (Nat × Nat) :=
  log.filterMap fun
    | .startReordering ssn winSize => some (ssn, winSize)
    | _ => none

/-- The window fits into `nbuf`, and no slot beyond it is touched while it is in use. -/
structure InBounds (α : Type) (ssn winSize : Nat) : Prop where
  window : 1 ≤ winSize ∧ winSize ≤ Rod.maxReordWindow
  slots : ∀ (now : Nat) (q : Rod.Queue α) (ops : List (Rod.Op α)),
    let q := staOnOut now ⟨true, true⟩ q (.startReordering ssn winSize)
    ∀ i ∈ (Rod.run q ops).touched, i ∈ q.touched ∨ i < Rod.maxReordWindow

theorem inBounds_of_window {ssn winSize : Nat}
    (h : 1 ≤ winSize ∧ winSize ≤ Rod.maxReordWindow) : InBounds α ssn winSize where
  window := h
  slots := by
    intro now q ops q' i hi
    have within := Rod.run_within (T := q'.touched) (w := winSize) (q := q') h.1
      ⟨rfl, fun _ hj => Or.inl hj⟩ ops
    rcases within.touched i hi with hi | hi
    · exact Or.inl hi
    · exact Or.inr (Nat.lt_of_lt_of_le hi h.2)

/-! ## What a request starts -/

/-- There is room for one more reordering once that of the TID, if any, is stopped. -/
def hasRoom (c : Ctx) : Bool :=
  decide (asUInt32 (c.reordReflim.cur - c.tid.rx.reorderIsActive.toInt + 1) ≤ c.reordReflim.max)

/-- The conditions under which `mtlk_addba_peer_on_addba_req_rx` starts a reordering. -/
def acceptsAddbaReq (req : AddbaReq) (c : Ctx) : Bool :=
  !dropsAddbaReq req.dlgt c.tid.rx && isAllowedRate req.rate && c.cfg.acceptAggr &&
    decide (req.ackPolicy ≠ 0) && hasRoom c

theorem reorderingStop_started (c : Ctx) : started (reorderingStop c).out = started c.out := by
  unfold reorderingStop
  simp only
  split <;> simp [resetRxState, Ctx.setRx, Ctx.emit, started]

theorem reorderingStop_reordReflim (c : Ctx) :
    (reorderingStop c).reordReflim =
      { c.reordReflim with cur := c.reordReflim.cur - c.tid.rx.reorderIsActive.toInt } := by
  have flag : (resetRxState c).tid.rx.reorderIsActive = c.tid.rx.reorderIsActive := rfl
  unfold reorderingStop
  simp only [flag]
  cases ha : c.tid.rx.reorderIsActive with
  | true => simp [resetRxState, Ctx.setRx, Ctx.emit, Reflim.unref]
  | false => simp [resetRxState, Ctx.setRx, Ctx.emit]

theorem reorderingStop_idle (c : Ctx) : (reorderingStop c).tid.rx.reorderIsActive = false := by
  unfold reorderingStop
  simp only
  split
  · rfl
  · rename_i idle
    exact eq_false_of_ne_true idle

theorem reorderingStop_cfg (c : Ctx) : (reorderingStop c).cfg = c.cfg := by
  unfold reorderingStop
  simp only
  split <;> rfl

theorem sendRxAddbaRes_started (io : Io) (now : Nat) (c : Ctx) :
    started (sendRxAddbaRes io now c).1.out = started c.out := by
  unfold sendRxAddbaRes
  simp only
  split
  · rfl
  · split
    · rfl
    · unfold onAddbaResSent
      split <;> simp [Ctx.setRx, Ctx.emit, started]

theorem answerAddbaReq_started (req : AddbaReq) (c : Ctx)
    (idle : c.tid.rx.reorderIsActive = false) :
    started (answerAddbaReq req c).out = started c.out ++
      if isAllowedRate req.rate && c.cfg.acceptAggr && decide (req.ackPolicy ≠ 0) &&
          decide (asUInt32 (c.reordReflim.cur + 1) ≤ c.reordReflim.max)
      then [(req.ssn, correctResWinSize req.winSize)] else [] := by
  unfold answerAddbaReq
  cases isAllowedRate req.rate with
  | false => simp [Ctx.setRx]
  | true =>
    cases c.cfg.acceptAggr with
    | false => simp [Ctx.setRx]
    | true =>
      by_cases policy : req.ackPolicy = 0
      · simp [policy, Ctx.setRx]
      · by_cases room : asUInt32 (c.reordReflim.cur + 1) ≤ c.reordReflim.max
        · simp [policy, reorderingStart, Reflim.tryRef, room, idle, Ctx.setRx, started, Ctx.emit]
        · simp [policy, reorderingStart, Reflim.tryRef, room, Ctx.setRx]

/-- A request starts at most one reordering, of the window it asks for. -/
theorem onAddbaReqRx_started (io : Io) (now : Nat) (req : AddbaReq) (c : Ctx) :
    started (onAddbaReqRx io now req c).out = started c.out ++
      if acceptsAddbaReq req c then [(req.ssn, correctResWinSize req.winSize)] else [] := by
  unfold onAddbaReqRx acceptsAddbaReq hasRoom
  cases dropsAddbaReq req.dlgt c.tid.rx with
  | true => simp
  | false =>
    have answer := answerAddbaReq_started req (reorderingStop c) (reorderingStop_idle c)
    rw [reorderingStop_started, reorderingStop_cfg, reorderingStop_reordReflim] at answer
    have sent := sendRxAddbaRes_started io now (answerAddbaReq req (reorderingStop c))
    simp only [Bool.false_eq_true, ↓reduceIte, Bool.not_false, Bool.true_and]
    rw [← answer, ← sent]
    split
    · exact reorderingStop_started _
    · split <;> rfl

section
variable {π ν : Type} [DecidableEq π] [DecidableEq ν]

/-- The request reaches its TID and is accepted there. -/
def System.Accepts (s : System π ν) (p : π) (tid : Nat) (req : AddbaReq) : Prop :=
  s.isActive p = true ∧ ∃ t : Fin nofTids, tid = t ∧ acceptsAddbaReq req (s.ctx (p, t)) = true

theorem serve_newOut (s : System π ν) (k j : π × Fin nofTids) (h : Ctx → Ctx) :
    s.newOut (s.serve k h) j = if j = k then (h (s.ctx k)).out else [] := by
  by_cases e : j = k
  · subst e
    simp [System.newOut, System.serve, System.put]
  · simp [System.newOut, System.serve, System.put, e]

/-- The reorderings a request starts, over all TIDs. -/
theorem addbaReqRx_started (s : System π ν) (p : π) (tid : Nat) (req : AddbaReq) (now : Nat)
    (io : Io) {ssn winSize : Nat} :
    (∃ k, (ssn, winSize) ∈ started (s.newOut (step s (.addbaReqRx p tid req now io)) k)) ↔
      s.Accepts p tid req ∧ ssn = req.ssn ∧ winSize = correctResWinSize req.winSize := by
  have nothing (k : π × Fin nofTids) : started (s.newOut s k) = [] := by
    simp [System.newOut, started]
  simp only [step, System.indicate, System.Accepts]
  split
  · rename_i ht
    split
    · rename_i active
      simp only [serve_newOut, active, true_and]
      constructor
      · rintro ⟨k, hk⟩
        split at hk
        · rw [onAddbaReqRx_started] at hk
          split at hk
          · rename_i accepts
            simp only [System.ctx, started, List.filterMap_nil, List.nil_append,
              List.mem_singleton, Prod.mk.injEq] at hk
            exact ⟨⟨⟨tid, ht⟩, rfl, accepts⟩, hk⟩
          · simp [System.ctx, started] at hk
        · simp [started] at hk
      · rintro ⟨⟨t, rfl, accepts⟩, rfl, rfl⟩
        refine ⟨(p, t), ?_⟩
        rw [if_pos rfl, onAddbaReqRx_started, accepts]
        simp
    · rename_i idle
      simp [nothing, idle]
  · rename_i ht
    simp only [nothing, List.not_mem_nil, exists_false, false_iff, not_and]
    rintro ⟨-, t, rfl, -⟩
    exact absurd t.isLt ht

/-- Every window a request frame makes the reordering queue be created with fits into it,
exactly when an accepted frame asks for a size whose low byte is at most 64. -/
theorem addba_request_in_bounds_iff {sta replay : Bool} {frame : Nat → UInt8} {tid : Nat}
    {req : AddbaReq} (h : processManFrame sta replay frame = some (.addbaReq tid req))
    (s : System π ν) (p : π) (now : Nat) (io : Io) :
    (∀ k, ∀ e ∈ started (s.newOut (step s (.addbaReqRx p tid req now io)) k),
      InBounds α e.1 e.2) ↔
      (s.Accepts p tid req → addbaReqSize frame (baBody frame) % 256 ≤ Rod.maxReordWindow) := by
  obtain ⟨win, -⟩ := processManFrame_addbaReq h
  constructor
  · intro bounds accepts
    obtain ⟨k, hk⟩ := (addbaReqRx_started s p tid req now io).mpr ⟨accepts, rfl, rfl⟩
    have fits := (bounds k _ hk).window.2
    rw [← win]
    simp only [correctResWinSize] at fits
    split at fits
    · rename_i zero
      rw [zero]
      exact Nat.zero_le _
    · exact fits
  · rintro small k ⟨ssn, winSize⟩ hk
    obtain ⟨accepts, -, rfl⟩ := (addbaReqRx_started s p tid req now io).mp ⟨k, hk⟩
    have le := small accepts
    rw [← win] at le
    apply inBounds_of_window
    simp only [correctResWinSize]
    split
    · decide
    · exact ⟨by omega, le⟩

end

/-- An ADDBA request for TID 0 with SSN 0 and an immediate policy. -/
def requestFrame (size : UInt8 × UInt8) (i : Nat) : UInt8 :=
  match i with
  | 0 => 0xD0
  | 24 => 3
  | 26 => 1
  | 27 => size.1
  | 28 => size.2
  | _ => 0

/-- A size of 64 is accepted and fits. -/
theorem addba_request_in_bounds_at_64 :
    let req : AddbaReq := ⟨0, 64, 1, 0, 1, rateAdaptive⟩
    let s := step onePeer (.peerStart () 0 true)
    let s' := step s (.addbaReqRx () 0 req 1 ⟨true, true⟩)
    started (s.newOut s' ((), 0)) = [(0, 64)] ∧
      ∀ k, ∀ e ∈ started (s.newOut s' k), InBounds Nat e.1 e.2 := by
  intro req s s'
  have parsed : processManFrame true false (requestFrame (0x02, 0x10)) =
      some (.addbaReq 0 req) := by decide
  refine ⟨by decide, ?_⟩
  exact (addba_request_in_bounds_iff parsed s () 1 ⟨true, true⟩).mpr fun _ => by decide

/-- A size of 100 is accepted as it is, and the packet with number 70 goes beyond `nbuf`. -/
theorem addba_request_of_size_100 :
    let frame := requestFrame (0x02, 0x19)
    let req : AddbaReq := ⟨0, 100, 1, 0, 1, rateAdaptive⟩
    let s := step onePeer (.peerStart () 0 true)
    let s' := step s (.addbaReqRx () 0 req 1 ⟨true, true⟩)
    let q := staOnOut 1 ⟨true, true⟩ (Rod.Queue.zeroed Nat) (.startReordering 0 100)
    processManFrame true false frame = some (.addbaReq 0 req) ∧
      addbaReqSize frame (baBody frame) = 100 ∧ started (s.newOut s' ((), 0)) = [(0, 100)] ∧
      70 ∈ (Rod.step q (.packet 2 ⟨70, 1⟩)).touched ∧ Rod.maxReordWindow ≤ 70 ∧
      ¬ ∀ k, ∀ e ∈ started (s.newOut s' k), InBounds Nat e.1 e.2 := by
  intro frame req s s' q
  have one : started (s.newOut s' ((), 0)) = [(0, 100)] := by decide
  refine ⟨by decide, by decide, one, by decide, by decide, fun bounds => ?_⟩
  have fits := (bounds ((), 0) (0, 100) (by rw [one]; exact List.mem_singleton.mpr rfl)).window.2
  exact absurd fits (by decide)

end Wave300.Addba
