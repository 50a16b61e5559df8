import Wave300.Lib.Fifo
import Wave300.Txmm.Callbacks

/-!
# The order of submission

Blocks are bound to hardware slots in the order in which they were submitted, less those
that were cancelled or timed out while they were queued, and a confirmation is taken for the
block that was bound to its slot last.

The hardware confirms a slot that it has been given, and `mtlk_txmm_on_cfm` pumps each slot
it was called for once. `Port` keeps the slots between these two steps, and the ledger of
the submissions.
-/

namespace Wave300.Txmm

open Wave300.Lib

variable {n : Nat} {μ σ κ ν : Type} {s s' : Base n μ σ κ ν} {b c : Fin n} {p : σ}
  {back back' : List σ} {new : List (Event n μ σ ν)}

/-- The blocks that wait for a slot, in order. -/
def Base.line (s : Base n μ σ κ ν) : List (Fin n) := (s.rings.ring .queued).toList n

theorem Sound.mem_line (h : Sound s) : b ∈ s.line ↔ s.rings.home b = some .queued :=
  h.seated.mem_toList

@[simp] theorem setBlock_pool (v : Block μ σ κ ν) : (s.setBlock b v).pool = s.pool := rfl

theorem putBuf_home (q : Que) :
    (s.putBuf q b).rings.home = Function.update s.rings.home b (some q) := rfl

/-- Only `b` is moved, and not to the hardware. -/
theorem sent_of_home (away : s'.rings.home b ≠ some .sent)
    (others : ∀ c, c ≠ b → s'.rings.home c = s.rings.home c ∧
      (s'.blocks c).slot = (s.blocks c).slot) (c : Fin n) (sent : s'.rings.home c = some .sent) :
    s.rings.home c = some .sent ∧ (s'.blocks c).slot = (s.blocks c).slot := by
  have ne : c ≠ b := by
    rintro rfl
    exact away sent
  obtain ⟨home, slot⟩ := others c ne
  exact ⟨home.symm.trans sent, slot⟩

theorem free_queued (was : s.rings.home b = some .queued) : (s.free b).rings.ring .queued =
    (s.rings.unlink n .queued b true).ring .queued := by
  have alive : s.rings.home b ≠ some .free := by
    rw [was]
    decide
  simp only [Base.free, was]
  rw [freeBuf_of_ne alive, was]
  change ((s.rings.unlink n .queued b true).put n .free b).ring .queued = _
  rw [Rings.put_others (by decide)]

theorem free_others (alive : s.rings.home b ≠ some .free) (apart : s.rings.home b ≠ some .queued) :
    (s.free b).rings.ring .queued = s.rings.ring .queued := by
  have kept (t : Rings Que (Fin n)) (same : t.ring .queued = s.rings.ring .queued) :
      (t.put n .free b).ring .queued = s.rings.ring .queued := by
    rw [Rings.put_others (by decide), same]
  unfold Base.free
  split
  · rfl
  · rename_i queued
    exact absurd queued apart
  · rename_i sent
    rw [freeBuf_of_ne alive, sent]
    exact kept _ (Rings.unlink_others false (by decide))
  · rw [freeBuf_of_ne alive]
    exact kept _ rfl

theorem line_putBuf (seated : s.rings.Seated n) (out : s.rings.home b = none) :
    (s.putBuf .queued b).line = s.line ++ [b] := by
  have pushed : (s.putBuf .queued b).rings.ring .queued =
      (s.rings.ring .queued).push n b := by
    simp only [Base.putBuf, Rings.put, Function.update_self]
  rw [Base.line, pushed]
  exact (seated.valid .queued).toList_push (Sound.room seated out .queued)

/-- `b` is bound to `p`. -/
structure Bound (s s' : Base n μ σ κ ν) (b : Fin n) (p : σ) : Prop where
  log : ∃ id size vap, s'.log = s.log ++ [Event.bound b p id size, .msgSend p vap]
  home : s'.rings.home = Function.update s.rings.home b (some .sent)
  slot : (s'.blocks b).slot = some p
  others : ∀ c, c ≠ b → (s'.blocks c).slot = (s.blocks c).slot

theorem sendBlockPrepare_bound (s : Base n μ σ κ ν) (b : Fin n) (p : σ) (vap : Option ν) :
    Bound s ((s.sendBlockPrepare b p).emit (.msgSend p vap)) b p := by
  constructor
  case log => exact ⟨_, _, vap, List.append_assoc ..⟩
  case home => rfl
  case slot =>
    change (Function.update s.blocks b _ b).slot = _
    rw [Function.update_self]
  case others =>
    intro c ne
    change (Function.update s.blocks b _ c).slot = _
    rw [Function.update_of_ne ne]

/-- The first of the line is bound. -/
theorem sendFirst_bound (h : Sound s) (p : σ) (some : (s.rings.ring .queued).total ≠ 0) :
    ∃ b, Bound s (s.sendFirst p) b p ∧ s.line = b :: (s.sendFirst p).line := by
  refine ⟨(s.rings.ring .queued).ptr (s.rings.ring .queued).fromIdx, ?_⟩
  rw [Base.sendFirst, getBuf_some some]
  constructor
  · obtain ⟨log, home, slot, others⟩ := sendBlockPrepare_bound
      { s with rings := s.rings.take n .queued }
      ((s.rings.ring .queued).ptr (s.rings.ring .queued).fromIdx) p
      (s.blocks ((s.rings.ring .queued).ptr (s.rings.ring .queued).fromIdx)).vapHandle
    exact ⟨log, home, slot, others⟩
  · rw [Base.line, (h.seated.valid .queued).toList_pop some]
    rfl

theorem sendFirst_pool (s : Base n μ σ κ ν) (p : σ) : (s.sendFirst p).pool = s.pool := by
  unfold Base.sendFirst Base.getBuf
  split <;> rename_i taken
  · split at taken <;> cases taken
    rfl
  · split at taken <;> cases taken
    rfl

variable [DecidableEq σ]

/-- The block that was bound to slot `p` last. -/
def lastBound (log : List (Event n μ σ ν)) (p : σ) : Option (Fin n) :=
  log.foldl
    (fun last e =>
      match e with
      | .bound b p' _ _ => if p' = p then some b else last
      | _ => last)
    none

theorem lastBound_bound (log : List (Event n μ σ ν)) (b : Fin n) (p p' : σ) (id size : UInt16) :
    lastBound (log ++ [Event.bound b p' id size]) p =
      if p' = p then some b else lastBound log p := by
  rw [lastBound, List.foldl_append]
  rfl

/-- The blocks that were bound. -/
def bindings (log : List (Event n μ σ ν)) : List (Fin n) :=
  log.filterMap fun e =>
    match e with
    | .bound b _ _ _ => some b
    | _ => none

theorem lastBound_append {log : List (Event n μ σ ν)} (silent : bindings new = []) (p : σ) :
    lastBound (log ++ new) p = lastBound log p := by
  induction new generalizing log with
  | nil => rw [List.append_nil]
  | cons e new ih =>
    rw [List.append_cons, ih]
    · rw [lastBound, List.foldl_append]
      cases e with
      | bound b p' id size => cases silent
      | _ => rfl
    · cases e with
      | bound b p' id size => cases silent
      | _ => exact silent

/-- The blocks whose callbacks were run. -/
def calls (log : List (Event n μ σ ν)) : List (Fin n) :=
  log.filterMap fun e =>
    match e with
    | .called b _ _ => some b
    | _ => none

/-- The manager, the slots that the hardware has confirmed and `mtlk_txmm_on_cfm` has still
to pump, and the ledger of the submissions. -/
structure Port (n : Nat) (μ σ κ ν : Type) where
  base : Base n μ σ κ ν
  back : List σ
  ledger : Ledger (Fin n)

/-- The blocks that a step submits: the one that is sent, or the one whose callback answers
that it is to be sent again. -/
def Op.submits (op : Op n μ σ κ ν) (s : Base n μ σ κ ν) (new : List (Event n μ σ ν)) :
    List (Fin n) :=
  match op with
  | .msgSend m _ _ => (s.msgs m).data.toList
  | .callUsrClb _ .send _ => calls new
  | _ => []

/-- The queued blocks that a step cancels or finds to have timed out. -/
def Op.withdraws (op : Op n μ σ κ ν) (s s' : Base n μ σ κ ν) : List (Fin n) :=
  match op with
  | .msgCancel m => (s.msgs m).data.toList.filter fun b => s.rings.home b = some .queued
  | .scanQueued _ => (List.finRange n).filter fun b =>
      s.rings.home b = some .queued ∧ s'.rings.home b = some .timedOut
  | _ => []

/-- Where the slots go that `mtlk_txmm_on_cfm` has in hand. -/
def Op.returns (op : Op n μ σ κ ν) (back : List σ) : List σ :=
  match op with
  | .onCfm p => back ++ [p]
  | .pump (some p) => back.erase p
  | _ => back

/-- What a step from `s` to `s'` adds to the ledger. -/
def Op.record (op : Op n μ σ κ ν) (s s' : Base n μ σ κ ν) (l : Ledger (Fin n)) :
    Ledger (Fin n) :=
  let new := s'.log.drop s.log.length
  let submitted := (op.submits s new).foldl Ledger.enter l
  (bindings new).foldl Ledger.serve (submitted.withdraw (op.withdraws s s'))

namespace Port
variable [DecidableEq μ]

def init (n : Nat) [NeZero n] (maxPayloadSize : UInt16) (pool : List σ) : Port n μ σ κ ν where
  base := Base.init n maxPayloadSize pool
  back := []
  ledger := ⟨0, fun _ => 0, [], []⟩

def step (w : Port n μ σ κ ν) (op : Op n μ σ κ ν) : Port n μ σ κ ν where
  base := Txmm.step w.base op
  back := op.returns w.back
  ledger := op.record w.base (Txmm.step w.base op) w.ledger

/-- The hardware confirms slots that it has: they are not in the pool, nor confirmed
already. A slot is pumped by the call that it was confirmed to. -/
def Offers (w : Port n μ σ κ ν) : Op n μ σ κ ν → Prop
  | .onCfm p => p ∉ w.base.pool ++ w.back
  | .pump (some p) => p ∈ w.back
  | _ => True

end Port

/-- The slots in the pool and those in hand are apart from those at the hardware, and a
block that is sent is the last that was bound to its slot. -/
structure Slots (s : Base n μ σ κ ν) (back : List σ) : Prop where
  apart : (s.pool ++ back).Nodup
  sent : ∀ b, s.rings.home b = some .sent → ∃ p, (s.blocks b).slot = some p ∧
    p ∉ s.pool ++ back ∧ lastBound s.log p = some b

namespace Slots

/-- A step that binds no block. -/
theorem aside (h : Slots s back)
    (slots : (s.pool ++ back).Perm (s'.pool ++ back')) (log : s'.log = s.log ++ new)
    (silent : bindings new = [])
    (sent : ∀ b, s'.rings.home b = some .sent → s.rings.home b = some .sent ∧
      (s'.blocks b).slot = (s.blocks b).slot) : Slots s' back' := by
  constructor
  case apart => exact slots.nodup_iff.1 h.apart
  case sent =>
    intro b at_hw
    obtain ⟨was, slot⟩ := sent b at_hw
    obtain ⟨p, bound, away, last⟩ := h.sent b was
    refine ⟨p, slot.trans bound, ?_, ?_⟩
    · rwa [← slots.mem_iff]
    · rw [log, lastBound_append silent, last]

/-- A slot that is in the pool or in hand is used for `b`. -/
theorem bind (h : Slots s back) (bound : Bound s s' b p)
    (slots : (s.pool ++ back).Perm (p :: (s'.pool ++ back'))) : Slots s' back' := by
  obtain ⟨id, size, vap, log⟩ := bound.log
  obtain ⟨used, apart⟩ := List.nodup_cons.1 (slots.nodup_iff.1 h.apart)
  have last (p' : σ) : lastBound s'.log p' = if p = p' then some b else lastBound s.log p' := by
    rw [log, List.append_cons, lastBound_append rfl, lastBound_bound]
  constructor
  case apart => exact apart
  case sent =>
    intro c at_hw
    by_cases e : c = b
    · subst e
      exact ⟨p, bound.slot, used, by rw [last, if_pos rfl]⟩
    · rw [bound.home, Function.update_of_ne e] at at_hw
      obtain ⟨p', slot, away, last'⟩ := h.sent c at_hw
      rw [slots.mem_iff, List.mem_cons, not_or] at away
      refine ⟨p', (bound.others c e).trans slot, away.2, ?_⟩
      rw [last, if_neg (Ne.symm away.1), last']

/-- The hardware gives back a slot that no block has any more. -/
theorem confirm (h : Slots s back) (away : p ∉ s.pool ++ back)
    (gone : ∀ b, s.rings.home b = some .sent → (s.blocks b).slot ≠ some p) :
    Slots s (back ++ [p]) := by
  constructor
  case apart =>
    rw [← List.append_assoc, List.nodup_append]
    refine ⟨h.apart, List.nodup_singleton p, ?_⟩
    rintro p' mem _ mem' rfl
    rw [List.mem_singleton.1 mem'] at mem
    exact away mem
  case sent =>
    intro b at_hw
    obtain ⟨p', bound, away', last⟩ := h.sent b at_hw
    refine ⟨p', bound, ?_, last⟩
    rw [← List.append_assoc, List.mem_append, List.mem_singleton]
    rintro (mem | rfl)
    · exact away' mem
    · exact gone b at_hw bound

end Slots

structure Flow (s : Base n μ σ κ ν) (back : List σ) (l : Ledger (Fin n)) : Prop where
  slots : Slots s back
  order : l.InOrder s.line

omit [DecidableEq σ] in
theorem record_eq {op : Op n μ σ κ ν} {l : Ledger (Fin n)} (log : s'.log = s.log ++ new) :
    op.record s s' l = (bindings new).foldl Ledger.serve
      (((op.submits s new).foldl Ledger.enter l).withdraw (op.withdraws s s')) := by
  rw [Op.record, log, List.drop_left]

namespace Flow
variable {l : Ledger (Fin n)} {op : Op n μ σ κ ν}

/-- A step that leaves the line alone. -/
theorem aside (h : Flow s back l) (new : List (Event n μ σ ν))
    (slots : (s.pool ++ back).Perm (s'.pool ++ back')) (log : s'.log = s.log ++ new)
    (silent : bindings new = []) (submits : op.submits s new = [])
    (withdraws : op.withdraws s s' = []) (line : s'.line = s.line)
    (sent : ∀ b, s'.rings.home b = some .sent → s.rings.home b = some .sent ∧
      (s'.blocks b).slot = (s.blocks b).slot) : Flow s' back' (op.record s s' l) := by
  refine ⟨h.slots.aside slots log silent sent, ?_⟩
  rw [record_eq log, silent, submits, withdraws, line]
  simpa only [List.foldl_nil, Ledger.withdraw, List.map_nil, List.append_nil] using h.order

/-- A step that submits `b`, which then waits. -/
theorem submit (h : Flow s back l) (new : List (Event n μ σ ν)) (slots : s'.pool = s.pool)
    (log : s'.log = s.log ++ new) (silent : bindings new = []) (submits : op.submits s new = [b])
    (withdraws : op.withdraws s s' = []) (fresh : b ∉ s.line) (line : s'.line = s.line ++ [b])
    (sent : ∀ b, s'.rings.home b = some .sent → s.rings.home b = some .sent ∧
      (s'.blocks b).slot = (s.blocks b).slot) : Flow s' back (op.record s s' l) := by
  refine ⟨h.slots.aside (by rw [slots]) log silent sent, ?_⟩
  rw [record_eq log, silent, submits, withdraws, line]
  simpa only [List.foldl_cons, List.foldl_nil, Ledger.withdraw, List.map_nil, List.append_nil]
    using h.order.enter fresh

/-- A step in which some of the line leave it. -/
theorem withdraw (h : Flow s back l) (new : List (Event n μ σ ν)) (slots : s'.pool = s.pool)
    (log : s'.log = s.log ++ new) (silent : bindings new = []) (submits : op.submits s new = [])
    (rest : s'.line.Sublist s.line)
    (left : ∀ c, c ∈ op.withdraws s s' ↔ c ∈ s.line ∧ c ∉ s'.line)
    (sent : ∀ b, s'.rings.home b = some .sent → s.rings.home b = some .sent ∧
      (s'.blocks b).slot = (s.blocks b).slot) : Flow s' back (op.record s s' l) := by
  refine ⟨h.slots.aside (by rw [slots]) log silent sent, ?_⟩
  rw [record_eq log, silent, submits]
  exact h.order.withdraw rest left

/-- A step that binds the first of the line, after the step's own block has come. -/
theorem bind {s₁ : Base n μ σ κ ν} (h : Flow s back l) (slots₁ : Slots s₁ back)
    (log₁ : s₁.log = s.log) (bound : Bound s₁ s' b p)
    (slots : (s₁.pool ++ back).Perm (p :: (s'.pool ++ back'))) (entered : List (Fin n))
    (fresh : (s.line ++ entered).Nodup) (submits : ∀ new, op.submits s new = entered)
    (withdraws : op.withdraws s s' = []) (line : s.line ++ entered = b :: s'.line) :
    Flow s' back' (op.record s s' l) := by
  obtain ⟨id, size, vap, log⟩ := bound.log
  have order := h.order.enters fresh
  refine ⟨slots₁.bind bound slots, ?_⟩
  rw [record_eq (log.trans (by rw [log₁])), submits, withdraws]
  rw [line] at order
  simpa only [bindings, List.filterMap_cons, List.filterMap_nil, List.foldl_cons, List.foldl_nil,
    Ledger.withdraw, List.map_nil, List.append_nil] using order.serve

theorem pump (h : Flow s back l) (sound : Sound s) (pmsg : Option σ)
    (offered : ∀ p, pmsg = some p → p ∈ back) :
    Flow (s.pump pmsg) (Op.returns (.pump pmsg : Op n μ σ κ ν) back)
      (Op.record (.pump pmsg) s (s.pump pmsg) l) := by
  have nodup : (s.line ++ []).Nodup := by
    rw [List.append_nil]
    exact h.order.nodup
  unfold Base.pump
  split
  · rename_i some
    cases pmsg with
    | some p =>
      obtain ⟨b, bound, line⟩ := sendFirst_bound sound p some
      refine h.bind h.slots rfl bound ?_ [] nodup (fun _ => rfl) rfl ?_
      · rw [sendFirst_pool]
        exact ((List.perm_cons_erase (offered p rfl)).append_left _).trans List.perm_middle
      · rw [List.append_nil, line]
    | none =>
      cases e : s.pool with
      | nil =>
        simp only [Base.msgGetFromPool, e, List.head?_nil]
        refine h.aside [] ?_ (List.append_nil _).symm rfl rfl rfl rfl ?_
        · rw [e]
          exact .refl _
        · intro b sent
          exact ⟨sent, rfl⟩
      | cons p rest =>
        simp only [Base.msgGetFromPool, e, List.head?_cons]
        obtain ⟨b, bound, line⟩ := sendFirst_bound (sound.withPool rest) p some
        have bound' : Bound s ({ s with pool := rest }.sendFirst p) b p :=
          ⟨bound.log, bound.home, bound.slot, bound.others⟩
        refine h.bind h.slots rfl bound' ?_ [] nodup (fun _ => rfl) rfl ?_
        · rw [sendFirst_pool, e]
          exact .refl _
        · rw [List.append_nil]
          exact line
  · have sent : ∀ b, s.rings.home b = some .sent → s.rings.home b = some .sent ∧
        (s.blocks b).slot = (s.blocks b).slot := fun b sent => ⟨sent, rfl⟩
    cases pmsg with
    | some p =>
      refine h.aside [] ?_ (List.append_nil _).symm rfl rfl rfl rfl sent
      have back_perm := (List.perm_cons_erase (offered p rfl)).append_left s.pool
      exact back_perm.trans (by simp [Base.msgFreeToPool, Op.returns])
    | none => exact h.aside [] (.refl _) (List.append_nil _).symm rfl rfl rfl rfl sent

/-- The user fills a block that is in no queue. -/
theorem fill (h : Slots s back) (out : s.rings.home b = none) (v : Block μ σ κ ν) :
    Slots (s.setBlock b v) back := by
  refine h.aside (.refl _) (List.append_nil _).symm rfl (sent_of_home (b := b) ?_ ?_)
  · change s.rings.home b ≠ some .sent
    rw [out]
    decide
  · intro c ne
    exact ⟨rfl, congrArg Block.slot (Function.update_of_ne ne ..)⟩

section
variable {m : μ} {req : Request κ} {now : UInt32} {v : Block μ σ κ ν} {rest : List σ}

omit [DecidableEq σ] in
theorem not_mem_line (sound : Sound s) (out : s.rings.home b = none) : b ∉ s.line := by
  rw [sound.mem_line, out]
  decide

theorem line_nodup (h : Flow s back l) (sound : Sound s) (out : s.rings.home b = none) :
    (s.line ++ [b]).Nodup := by
  rw [List.nodup_append]
  refine ⟨h.order.nodup, List.nodup_singleton b, ?_⟩
  rintro c mem _ mem' rfl
  rw [List.mem_singleton.1 mem'] at mem
  exact not_mem_line sound out mem

/-- A block is sent for which there is a slot, and none is before it. -/
theorem sendDirect (h : Flow s back l) (sound : Sound s) (out : s.rings.home b = none)
    (pool : s.pool = p :: rest) (empty : (s.rings.ring .queued).total = 0)
    (submits : ∀ new, op.submits s new = [b]) (withdraws : ∀ s', op.withdraws s s' = [])
    {vap : Option ν}
    (sent : s' =
      ({ s.setBlock b v with pool := rest }.sendBlockPrepare b p).emit (.msgSend p vap)) :
    Flow s' back (op.record s s' l) := by
  have line : s.line = [] := Ring.toList_eq_nil empty
  have line' : s'.line = s.line := by
    rw [sent]
    rfl
  have bound : Bound (s.setBlock b v) s' b p := by
    obtain ⟨log, home, slot, others⟩ := sendBlockPrepare_bound
      { s.setBlock b v with pool := rest } b p vap
    rw [← sent] at log home slot others
    exact ⟨log, home, slot, others⟩
  refine h.bind (fill h.slots out v) rfl bound ?_ [b] (h.line_nodup sound out) submits
    (withdraws _) ?_
  · rw [sent]
    exact .of_eq (congrArg (· ++ back) pool)
  · rw [line', line]
    rfl

/-- A block is put behind those that wait, and the first of them is sent. -/
theorem sendBehind (h : Flow s back l) (sound : Sound s) (out : s.rings.home b = none)
    (pool : s.pool = p :: rest)
    (queued : Sound ({ s.setBlock b v with pool := rest }.putBuf .queued b))
    (submits : ∀ new, op.submits s new = [b]) (withdraws : ∀ s', op.withdraws s s' = [])
    (sent : s' = ({ s.setBlock b v with pool := rest }.putBuf .queued b).pump (some p)) :
    Flow s' back (op.record s s' l) := by
  have line : ({ s.setBlock b v with pool := rest }.putBuf .queued b).line = s.line ++ [b] :=
    line_putBuf sound.seated out
  have some :
      (({ s.setBlock b v with pool := rest }.putBuf .queued b).rings.ring .queued).total ≠ 0 := by
    rw [← Ring.length_toList (n := n)]
    change List.length (Base.line _) ≠ 0
    rw [line, List.length_append]
    exact Nat.succ_ne_zero _
  rw [Base.pump, if_pos some] at sent
  obtain ⟨c, bound, first⟩ := sendFirst_bound queued p some
  rw [← sent] at bound first
  have filled : Slots ((s.setBlock b v).putBuf .queued b) back := by
    refine (fill h.slots out v).aside (.refl _) (List.append_nil _).symm rfl
      (sent_of_home (b := b) ?_ ?_)
    · rw [putBuf_home, Function.update_self]
      decide
    · intro c ne
      exact ⟨Function.update_of_ne ne .., rfl⟩
  refine h.bind filled rfl ⟨bound.log, bound.home, bound.slot, bound.others⟩ ?_ [b]
    (h.line_nodup sound out) submits (withdraws _) (line.symm.trans first)
  rw [sent, sendFirst_pool]
  exact .of_eq (congrArg (· ++ back) pool)

/-- The user sends the message of a block it holds. -/
theorem sendEx [DecidableEq μ] (h : Flow s back l) (sound : Sound s) (obj : ν)
    (data : (s.msgs m).data = some b) (out : s.rings.home b = none)
    (idle : b ∉ s.pending.map PendingClb.block) :
    Flow (s.sendEx obj b req now) back
      (Op.record (.msgSend m req now) s (s.sendEx obj b req now) l) := by
  have alive : s.rings.home b ≠ some .free := by
    rw [out]
    decide
  have submits : ∀ new, Op.submits (.msgSend m req now) s new = [b] := by
    intro new
    simp only [Op.submits, data, Option.toList_some]
  unfold Base.sendEx
  cases e : s.pool with
  | nil =>
    simp only [Base.msgGetFromPool, setBlock_pool, e, List.head?_nil, List.tail_nil]
    refine h.submit [] e.symm (List.append_nil _).symm rfl (submits _) rfl
      (not_mem_line sound out) (line_putBuf sound.seated out) (sent_of_home (b := b) ?_ ?_)
    · rw [putBuf_home, Function.update_self]
      decide
    · intro c ne
      exact ⟨Function.update_of_ne ne .., congrArg Block.slot (Function.update_of_ne ne ..)⟩
  | cons p rest =>
    simp only [Base.msgGetFromPool, setBlock_pool, e, List.head?_cons, List.tail_cons]
    split
    · rename_i empty direct
      obtain rfl := Option.some_inj.1 direct
      exact h.sendDirect sound out e empty submits (fun _ => rfl) rfl
    · rename_i taken _
      obtain rfl := Option.some_inj.1 taken
      refine h.sendBehind sound out e ?_ submits (fun _ => rfl) rfl
      refine sound.move sound.seated (Sound.home_update_of_out out) alive idle (by decide) ?_ ?_
        rfl rfl rfl rfl rfl
      · rfl
      · rfl
    · rename_i taken
      cases taken

end

/-- A step that takes `b` from wherever it was, but not from the line, and sends nothing. -/
theorem move (h : Flow s back l) (new : List (Event n μ σ ν)) (pool : s'.pool = s.pool)
    (log : s'.log = s.log ++ new) (silent : bindings new = []) (submits : op.submits s new = [])
    (withdraws : op.withdraws s s' = [])
    (line : s'.rings.ring .queued = s.rings.ring .queued) (away : s'.rings.home b ≠ some .sent)
    (others : ∀ c, c ≠ b → s'.rings.home c = s.rings.home c ∧
      (s'.blocks c).slot = (s.blocks c).slot) : Flow s' back (op.record s s' l) := by
  refine h.aside new ?_ log silent submits withdraws ?_ (sent_of_home away others)
  · rw [pool]
  · rw [Base.line, line]
    rfl

/-- A step that changes nothing that the line or the slots depend on. -/
theorem skip (h : Flow s back l) (new : List (Event n μ σ ν)) (pool : s'.pool = s.pool)
    (log : s'.log = s.log ++ new) (silent : bindings new = []) (submits : op.submits s new = [])
    (withdraws : op.withdraws s s' = []) (rings : s'.rings = s.rings)
    (blocks : s'.blocks = s.blocks) : Flow s' back (op.record s s' l) := by
  refine h.aside new ?_ log silent submits withdraws ?_ ?_
  · rw [pool]
  · rw [Base.line, rings]
    rfl
  · intro c sent
    rw [rings] at sent
    rw [blocks]
    exact ⟨sent, rfl⟩

theorem drain (h : Flow s back l) (sound : Sound s) (reason : ClbReason) :
    Flow (s.drain reason) back (Op.record (.drain reason) s (s.drain reason) l) := by
  unfold Base.drain
  simp only
  split
  · rename_i some
    have was := sound.home_from some
    refine h.move (b := (s.rings.ring .timedOut).ptr (s.rings.ring .timedOut).fromIdx)
      [.msgTimedOut _, .unlinked _ _] rfl (List.append_assoc ..) rfl rfl rfl ?_ ?_ ?_
    · exact Rings.unlink_others false (by decide)
    · change (s.rings.unlink n .timedOut _ false).home _ ≠ _
      rw [Rings.unlink_home false (sound.seated.seat _ _ was).2, Function.update_self]
      decide
    · intro c ne
      exact ⟨Rings.unlink_home_of_ne false ne, rfl⟩
  · exact h.skip [] rfl (List.append_nil _).symm rfl rfl rfl rfl rfl

section
variable [DecidableEq μ]

theorem getEmptyData (h : Flow s back l) (m : μ) (obj : ν) :
    Flow (s.getEmptyData m obj) back
      (Op.record (.getEmptyData m obj) s (s.getEmptyData m obj) l) := by
  unfold Base.getEmptyData
  split
  · unfold Base.attachData
    split
    · by_cases some : (s.rings.ring .free).total = 0
      · rw [getBuf_none some]
        exact h.skip [] rfl (List.append_nil _).symm rfl rfl rfl rfl rfl
      · rw [getBuf_some some]
        refine h.move (b := (s.rings.ring .free).ptr (s.rings.ring .free).fromIdx)
          [.attached m _] rfl rfl rfl rfl rfl ?_ ?_ ?_
        · exact Rings.take_others (n := n) (t := s.rings) (show Que.queued ≠ .free by decide)
        · change Function.update s.rings.home _ none _ ≠ _
          rw [Function.update_self]
          decide
        · intro c ne
          exact ⟨Function.update_of_ne ne .., congrArg Block.slot (Function.update_of_ne ne ..)⟩
    · exact h.skip [] rfl (List.append_nil _).symm rfl rfl rfl rfl rfl
  · exact h.skip [] rfl (List.append_nil _).symm rfl rfl rfl rfl rfl

theorem callUsrClb (h : Flow s back l) (sound : Sound s) {p : PendingClb n μ}
    (mem : p ∈ s.pending) (action : ClbAction) (now : UInt32) :
    Flow ((s.settle p).callUsrClbLocked p.block p.reason action now) back
      (Op.record (.callUsrClb p action now) s
        ((s.settle p).callUsrClbLocked p.block p.reason action now) l) := by
  obtain ⟨out, clb, -⟩ := sound.owned.waiting p mem
  have alive : s.rings.home p.block ≠ some .free := by
    rw [out]
    decide
  obtain ⟨m, msg, data⟩ := sound.owned.msg p.block alive
  rw [callUsrClbLocked_eq (s := s.settle p) msg data clb]
  cases action with
  | free =>
    have freed :=
      freeBuf_freed ((s.settle p).emit (.called p.block m p.reason)) p.block false false
    refine h.move (b := p.block) [.called p.block m p.reason] freed.pool freed.log rfl
      rfl rfl ?_ ?_ ?_
    · rw [Base.clbAction, freeBuf_of_ne (s := (s.settle p).emit _) alive]
      exact Rings.put_others (by decide)
    · change (Base.freeBuf _ _ _ _).rings.home _ ≠ _
      rw [freed.home]
      decide
    · intro c ne
      obtain ⟨home, blocks⟩ := freed.others c ne
      exact ⟨home, congrArg Block.slot blocks⟩
  | send =>
    refine h.submit [.called p.block m p.reason] rfl rfl rfl rfl rfl
      (not_mem_line sound out) (line_putBuf sound.seated out) (sent_of_home (b := p.block) ?_ ?_)
    · change Function.update s.rings.home p.block (some .queued) p.block ≠ _
      rw [Function.update_self]
      decide
    · intro c ne
      exact ⟨Function.update_of_ne ne .., congrArg Block.slot (Function.update_of_ne ne ..)⟩
  | keep =>
    exact h.skip [.called p.block m p.reason] rfl rfl rfl rfl rfl rfl rfl

theorem msgCancel (h : Flow s back l) (sound : Sound s) (m : μ)
    (spared : ∀ b, (s.msgs m).data = some b →
      s.rings.home b ≠ some .timedOut ∧ b ∉ s.pending.map PendingClb.block) :
    Flow (s.msgCancel m) back (Op.record (.msgCancel m) s (s.msgCancel m) l) := by
  have sound' := sound.msgCancel m spared
  cases data : (s.msgs m).data with
  | none =>
    have obj := (sound.owned.obj m).2 data
    have skipped : s.msgCancel m = s.emit (.cancelled m) := by
      simp only [Base.msgCancel, obj]
    rw [skipped]
    refine h.skip [.cancelled m] rfl rfl rfl rfl ?_ rfl rfl
    simp only [Op.withdraws, data, Option.toList_none, List.filter_nil]
  | some b =>
    have alive := sound.not_free_of_data data
    obtain ⟨obj, attached⟩ := Option.ne_none_iff_exists'.1 fun none =>
      Option.some_ne_none b (data.symm.trans ((sound.owned.obj m).1 none))
    have cancelled : s.msgCancel m = ((s.free b).setMsg m {}).emit (.cancelled m) := by
      simp only [Base.msgCancel, attached, data]
    have freed := free_freed s b
    have pool : (s.msgCancel m).pool = s.pool := by
      rw [cancelled]
      exact freed.pool
    have log : (s.msgCancel m).log = s.log ++ [Event.cancelled m] := by
      rw [cancelled, ← freed.log]
      rfl
    have home : (s.msgCancel m).rings.home b = some .free := by
      rw [cancelled]
      exact freed.home
    have others : ∀ c, c ≠ b → (s.msgCancel m).rings.home c = s.rings.home c ∧
        ((s.msgCancel m).blocks c).slot = (s.blocks c).slot := by
      intro c ne
      obtain ⟨home, blocks⟩ := freed.others c ne
      rw [cancelled]
      exact ⟨home, congrArg Block.slot blocks⟩
    have away : (s.msgCancel m).rings.home b ≠ some .sent := by
      rw [home]
      decide
    by_cases was : s.rings.home b = some .queued
    · refine h.withdraw _ pool log rfl rfl ?_ ?_ (sent_of_home away others)
      · have line : (s.msgCancel m).rings.ring .queued =
            (s.rings.unlink n .queued b true).ring .queued := by
          rw [cancelled, ← free_queued was]
          rfl
        rw [Base.line, line]
        exact sound.seated.toList_unlink was
      · intro c
        simp only [Op.withdraws, data, Option.toList_some, sound.mem_line, sound'.mem_line,
          List.mem_filter, List.mem_singleton, decide_eq_true_eq]
        by_cases e : c = b
        · subst e
          simp [was, home]
        · simp [e, (others c e).1]
    · refine h.move _ pool log rfl rfl ?_ ?_ away others
      · simp [Op.withdraws, data, was]
      · rw [cancelled, ← free_others alive was]
        rfl

end

/-- The blocks that the timeout scan takes from its queue leave the line, if that is it. -/
structure Swept (s t : Base n μ σ κ ν) : Prop where
  pool : t.pool = s.pool
  blocks : t.blocks = s.blocks
  log : t.log = s.log
  line : t.line.Sublist s.line
  moved : ∀ c, t.rings.home c = s.rings.home c ∨ t.rings.home c = some .timedOut

omit [DecidableEq σ] in
theorem scan_swept (sound : Sound s) (now : UInt32) {q : Que} (ne : q ≠ .free)
    (apart : q ≠ .timedOut) (preserveOrder : Bool) (keeps : q = .queued → preserveOrder = true) :
    Sound (s.scan now q preserveOrder) ∧ Swept s (s.scan now q preserveOrder) := by
  refine Sound.scan (P := Swept s) now preserveOrder ne apart ?_ sound
    ⟨rfl, rfl, rfl, List.Sublist.refl _, fun _ => .inl rfl⟩
  intro t b sound' so_far home _
  refine ⟨so_far.pool, so_far.blocks, so_far.log, List.Sublist.trans ?_ so_far.line, ?_⟩
  · have line : ((t.delBufFromQue (some q) b preserveOrder).putBuf .timedOut b).rings.ring
        .queued = (t.rings.unlink n q b preserveOrder).ring .queued :=
      Rings.put_others (by decide)
    rw [Base.line, line]
    by_cases e : q = .queued
    · subst e
      rw [keeps rfl]
      exact sound'.seated.toList_unlink home
    · rw [Rings.unlink_others preserveOrder (Ne.symm e)]
      exact List.Sublist.refl _
  · intro c
    rw [sound'.expire_home home]
    by_cases e : c = b
    · subst e
      exact .inr (Function.update_self ..)
    · rw [Function.update_of_ne e]
      exact so_far.moved c

/-- The timeout scan of a queue. -/
theorem swept (h : Flow s back l) (sound : Sound s) (sound' : Sound s') (swept : Swept s s')
    (submits : op.submits s [] = [])
    (withdraws : ∀ c, c ∈ op.withdraws s s' ↔
      s.rings.home c = some .queued ∧ s'.rings.home c ≠ some .queued) :
    Flow s' back (op.record s s' l) := by
  refine h.withdraw [] swept.pool (swept.log.trans (List.append_nil _).symm) rfl
    submits swept.line ?_ ?_
  · intro c
    rw [withdraws, sound.mem_line, sound'.mem_line]
  · intro c sent
    rw [swept.blocks]
    obtain same | timedOut := swept.moved c
    · exact ⟨same.symm.trans sent, rfl⟩
    · rw [timedOut] at sent
      cases sent

theorem scanSent (h : Flow s back l) (sound : Sound s) (now : UInt32) :
    Flow (s.scan now .sent false) back
      (Op.record (.scanSent now) s (s.scan now .sent false) l) := by
  obtain ⟨sound', swept⟩ := scan_swept sound now (q := .sent) (by decide) (by decide) false
    (fun e => nomatch e)
  obtain ⟨-, scanned⟩ := Sound.scan (P := fun t => ∀ c, s.rings.home c = some .queued →
    t.rings.home c = some .queued) now false (q := .sent) (by decide) (by decide) (by
      intro t b sound so_far home _ c queued
      rw [sound.expire_home home, Function.update_of_ne, so_far c queued]
      rintro rfl
      rw [so_far c queued] at home
      cases home) sound (fun _ queued => queued)
  apply h.swept sound sound' swept rfl
  intro c
  simp only [Op.withdraws, List.not_mem_nil, false_iff, not_and, not_not]
  exact scanned c

theorem scanQueued (h : Flow s back l) (sound : Sound s) (now : UInt32) :
    Flow (s.scan now .queued true) back
      (Op.record (.scanQueued now) s (s.scan now .queued true) l) := by
  obtain ⟨sound', swept⟩ := scan_swept sound now (q := .queued) (by decide) (by decide) true
    (fun _ => rfl)
  apply h.swept sound sound' swept rfl
  intro c
  simp only [Op.withdraws, List.mem_filter, List.mem_finRange, true_and, decide_eq_true_eq]
  constructor
  · rintro ⟨queued, timedOut⟩
    refine ⟨queued, ?_⟩
    rw [timedOut]
    decide
  · rintro ⟨queued, moved⟩
    refine ⟨queued, (swept.moved c).resolve_left ?_⟩
    intro same
    exact moved (same.trans queued)

end Flow

theorem Slots.distinct (h : Slots s back) (sent : s.rings.home b = some .sent)
    (sent' : s.rings.home c = some .sent) (same : (s.blocks b).slot = (s.blocks c).slot) :
    b = c := by
  obtain ⟨p, slot, -, last⟩ := h.sent b sent
  obtain ⟨p', slot', -, last'⟩ := h.sent c sent'
  rw [slot, slot', Option.some_inj] at same
  subst same
  exact Option.some_inj.1 (last.symm.trans last')

/-- A block that is sent is found by its slot. -/
theorem findSent_complete (fuel : Nat) (sound : Sound s) (sent : s.rings.home c = some .sent)
    (slot : (s.blocks c).slot = some p) {i : Nat}
    (holds : (s.rings.ring .sent).Holds n i)
    (ahead : offset n (s.rings.ring .sent).fromIdx i ≤
      offset n (s.rings.ring .sent).fromIdx (s.rings.idx c))
    (enough : (s.rings.ring .sent).total ≤ offset n (s.rings.ring .sent).fromIdx i + fuel) :
    ∃ b, s.findSent p fuel i = some b := by
  obtain ⟨inside, at_idx⟩ := sound.seated.seat c .sent sent
  have valid := sound.seated.valid .sent
  induction fuel generalizing i with
  | zero => exact absurd holds.2 (Nat.not_lt.2 enough)
  | succ fuel ih =>
    rw [Base.findSent]
    split
    · exact ⟨_, rfl⟩
    · rename_i other
      have apart : i ≠ s.rings.idx c := by
        rintro rfl
        rw [at_idx] at other
        exact other slot
      have lt : offset n (s.rings.ring .sent).fromIdx i <
          offset n (s.rings.ring .sent).fromIdx (s.rings.idx c) := by
        apply Nat.lt_of_le_of_ne ahead
        intro same
        rw [← valid.wrap_offset holds, same, valid.wrap_offset inside] at apart
        exact apart rfl
      have less := inside.2
      obtain ⟨next, more⟩ := valid.next_of_lt holds (by omega)
      rw [if_neg more]
      apply ih
      · exact (valid.holds_next holds).resolve_right more
      · omega
      · omega

/-- What the first section of a confirmation of `p` does: it unlinks the block that has
the slot, if there is one. -/
theorem onCfm_cases (sound : Sound s) (p : σ) :
    (∃ b, s.rings.home b = some .sent ∧ (s.blocks b).slot = some p ∧
      s.onCfm p = (s.delBufFromQue (some .sent) b false).defer b .confirmed) ∨
    ((∀ c, s.rings.home c = some .sent → (s.blocks c).slot ≠ some p) ∧ s.onCfm p = s) := by
  have valid := sound.seated.valid .sent
  unfold Base.onCfm
  split
  · rename_i some
    have first := valid.holds_from some
    split
    · rename_i b found
      obtain ⟨sent, slot⟩ := findSent_holds sound first found
      exact .inl ⟨b, sent, slot, rfl⟩
    · rename_i missing
      refine .inr ⟨?_, rfl⟩
      intro c sent slot
      have start : offset n (s.rings.ring .sent).fromIdx (s.rings.ring .sent).fromIdx = 0 := by
        simp only [offset, le_refl, if_true, Nat.sub_self]
      obtain ⟨b, found⟩ := findSent_complete n sound sent slot first (by omega)
        (Nat.le_trans valid.total_le (Nat.le_add_left ..))
      rw [missing] at found
      cases found
  · rename_i none
    refine .inr ⟨?_, rfl⟩
    intro c sent
    exact absurd (Nat.ne_of_gt (Nat.zero_lt_of_lt (sound.seated.seat c .sent sent).1.2)) none

theorem Flow.onCfm {l : Ledger (Fin n)} (h : Flow s back l) (sound : Sound s)
    (away : p ∉ s.pool ++ back) : Flow (s.onCfm p) (back ++ [p])
      (Op.record (.onCfm p) s (s.onCfm p) l) := by
  obtain ⟨b, sent, slot, unlinked⟩ | ⟨none, same⟩ := onCfm_cases sound p
  · have home : (s.onCfm p).rings.home = Function.update s.rings.home b none := by
      rw [unlinked]
      exact Rings.unlink_home false (sound.seated.seat b .sent sent).2
    have blocks : (s.onCfm p).blocks = s.blocks := by
      rw [unlinked]
      rfl
    have pool : (s.onCfm p).pool = s.pool := by
      rw [unlinked]
      rfl
    have moved : Flow (s.onCfm p) back (Op.record (.onCfm p) s (s.onCfm p) l) := by
      refine h.move (b := b) [.unlinked b (s.blocks b).msg] pool ?_ rfl rfl rfl ?_ ?_ ?_
      · rw [unlinked]
        rfl
      · rw [unlinked]
        exact Rings.unlink_others false (by decide)
      · rw [home, Function.update_self]
        decide
      · intro c ne
        rw [home, blocks]
        exact ⟨Function.update_of_ne ne .., rfl⟩
    refine ⟨moved.slots.confirm (by rwa [pool]) ?_, moved.order⟩
    intro c at_hw same
    rw [blocks] at same
    have ne : c ≠ b := by
      rintro rfl
      rw [home, Function.update_self] at at_hw
      cases at_hw
    rw [home, Function.update_of_ne ne] at at_hw
    exact ne (h.slots.distinct at_hw sent (same.trans slot.symm))
  · have kept : Flow s back (Op.record (.onCfm p) s s l) :=
      h.skip [] rfl (List.append_nil _).symm rfl rfl rfl rfl rfl
    rw [same]
    exact ⟨kept.slots.confirm away none, kept.order⟩

section
variable [DecidableEq μ] {w : Port n μ σ κ ν}

theorem Flow.step (h : Flow w.base w.back w.ledger) (sound : Sound w.base) (op : Op n μ σ κ ν)
    (offers : w.Offers op) (careful : op.Careful w.base) :
    Flow (w.step op).base (w.step op).back (w.step op).ledger := by
  cases op with
  | start => exact h.skip [] rfl (List.append_nil _).symm rfl rfl rfl rfl rfl
  | halt => exact h.skip [] rfl (List.append_nil _).symm rfl rfl rfl rfl rfl
  | getEmptyData m obj => exact h.getEmptyData m obj
  | msgSend m req now =>
    obtain ⟨⟨b, data, out⟩, spared⟩ := careful.inTurn
    cases obj : (w.base.msgs m).obj with
    | none =>
      rw [(sound.owned.obj m).1 obj] at data
      cases data
    | some obj' =>
      have sends : Txmm.step w.base (.msgSend m req now) = w.base.sendEx obj' b req now := by
        simp only [Txmm.step, Base.msgSend, data, obj]
      simp only [Port.step, sends]
      exact h.sendEx sound obj' data out (sound.idle data spared)
  | pump pmsg =>
    apply h.pump sound pmsg
    rintro p rfl
    exact offers
  | onCfm p => exact h.onCfm sound offers
  | scanSent now => exact h.scanSent sound now
  | scanQueued now => exact h.scanQueued sound now
  | drain reason => exact h.drain sound reason
  | callUsrClb p action now =>
    by_cases mem : p ∈ w.base.pending
    · have runs : Txmm.step w.base (.callUsrClb p action now) =
          (w.base.settle p).callUsrClbLocked p.block p.reason action now := if_pos mem
      simp only [Port.step, runs]
      exact h.callUsrClb sound mem action now
    · have none : Txmm.step w.base (.callUsrClb p action now) = w.base := if_neg mem
      simp only [Port.step, none]
      refine h.skip [] rfl (List.append_nil _).symm rfl ?_ rfl rfl rfl
      cases action <;> rfl
  | msgCancel m =>
    apply h.msgCancel sound m
    intro b data
    exact ⟨careful.sparesTimedOut b data, sound.idle data careful.sparesPending⟩

/-- Submissions are bound in order and once each, no two blocks have the same slot at the
hardware, and the confirmation of a slot is for the block last bound to it or for none. -/
structure Ordered (w : Port n μ σ κ ν) : Prop where
  order : w.ledger.InOrder w.base.line
  distinct : ∀ b c, w.base.rings.home b = some .sent → w.base.rings.home c = some .sent →
    (w.base.blocks b).slot = (w.base.blocks c).slot → b = c
  attributed : ∀ p, (w.base.onCfm p).pending = w.base.pending ∨
    ∃ b, lastBound w.base.log p = some b ∧ (w.base.onCfm p).pending =
      w.base.pending ++ [⟨b, (w.base.blocks b).msg, .confirmed⟩]

omit [DecidableEq μ] in
theorem Flow.ordered (h : Flow w.base w.back w.ledger) (sound : Sound w.base) : Ordered w := by
  constructor
  case order => exact h.order
  case distinct =>
    intro b c sent sent' same
    exact h.slots.distinct sent sent' same
  case attributed =>
    intro p
    obtain ⟨b, sent, slot, unlinked⟩ | ⟨-, same⟩ := onCfm_cases sound p
    · obtain ⟨p', bound, -, last⟩ := h.slots.sent b sent
      rw [slot, Option.some_inj] at bound
      subst bound
      refine .inr ⟨b, last, ?_⟩
      rw [unlinked]
      rfl
    · rw [same]
      exact .inl rfl

omit [DecidableEq μ] in
theorem Port.init_flow [NeZero n] (maxPayloadSize : UInt16) {pool : List σ}
    (apart : pool.Nodup) :
    Flow (Port.init n maxPayloadSize pool : Port n μ σ κ ν).base [] ⟨0, fun _ => 0, [], []⟩ := by
  constructor
  case slots =>
    constructor
    case apart =>
      rw [List.append_nil]
      exact apart
    case sent =>
      intro b sent
      cases sent
  case order =>
    constructor
    case served => exact .nil
    case waiting => exact .nil
    case behind =>
      intro k mem
      cases mem
    case fate =>
      intro k
      simp only [Nat.not_lt_zero, List.not_mem_nil, false_or, false_iff]
      intro mem
      cases mem
    case kept =>
      intro k mem
      cases mem

/-- In every run in which no message is cancelled while its block is with a call or waits to
be drained, blocks are bound to slots in the order of their submission. -/
theorem submissions_bound_in_order [NeZero n] {maxPayloadSize : UInt16} {pool : List σ}
    (apart : pool.Nodup)
    (run : Runs Port.step (fun w op => w.Offers op ∧ op.Careful w.base)
      (Port.init n maxPayloadSize pool) w) : Ordered w := by
  have invariant : Sound w.base ∧ Flow w.base w.back w.ledger := by
    refine run.invariant (P := fun w => Sound w.base ∧ Flow w.base w.back w.ledger)
      ⟨init_sound maxPayloadSize pool, Port.init_flow maxPayloadSize apart⟩ ?_
    rintro w op ⟨sound, flow⟩ ⟨offers, careful⟩
    exact ⟨sound.step op careful, flow.step sound op offers careful⟩
  exact invariant.2.ordered invariant.1

end

/-- A message waits for the slot of another one, and gets it when that is confirmed. -/
theorem submissions_bound_in_order_after_wait :
    Ordered ([.start, .getEmptyData 1 (), .msgSend 1 ⟨5, 10, (), 0⟩ 0, .getEmptyData 2 (),
      .msgSend 2 ⟨6, 10, (), 0⟩ 0, .onCfm 7, .callUsrClb ⟨0, some 1, .confirmed⟩ .free 0,
      .pump (some 7)].foldl Port.step (Port.init 2 64 [7] : Port 2 Nat Nat Unit Unit)) := by
  refine submissions_bound_in_order (by decide) (Runs.of_allowed ?_)
  refine ⟨⟨trivial, trivial, trivial, trivial⟩, ⟨trivial, trivial, trivial, trivial⟩,
    ⟨trivial, ⟨⟨0, ?_⟩, ?_⟩, trivial, trivial⟩, ⟨trivial, trivial, trivial, trivial⟩,
    ⟨trivial, ⟨⟨1, ?_⟩, ?_⟩, trivial, trivial⟩, ⟨?_, trivial, trivial, trivial⟩,
    ⟨trivial, trivial, trivial, trivial⟩, ⟨?_, trivial, trivial, trivial⟩, trivial⟩
  any_goals decide
  all_goals
    simp only [Port.Offers]
    decide

/-- With one block and one slot: the confirmation of message 1 has unlinked the block when
message 1 is cancelled, and message 2 takes the block and waits. The callback that is then
run frees the block in the line; message 3 takes it and joins the line, and is bound twice. -/
theorem cancel_before_callback_binds_twice :
    ∃ w : Port 1 Nat Nat Unit Unit,
      Runs Port.step (fun w op => w.Offers op ∧ op.InTurn w.base ∧ op.SparesTimedOut w.base)
        (Port.init 1 64 [7]) w ∧ ¬Ordered w := by
  refine ⟨_, Runs.of_allowed (l := [.start, .getEmptyData 1 (), .msgSend 1 ⟨5, 10, (), 0⟩ 0,
    .onCfm 7, .msgCancel 1, .getEmptyData 2 (), .msgSend 2 ⟨6, 10, (), 0⟩ 0,
    .callUsrClb ⟨0, some 1, .confirmed⟩ .free 0, .getEmptyData 3 (),
    .msgSend 3 ⟨7, 10, (), 0⟩ 0, .pump (some 7), .onCfm 7, .pump (some 7)]) ?_, ?_⟩
  · refine ⟨⟨trivial, trivial, trivial⟩, ⟨trivial, trivial, trivial⟩,
      ⟨trivial, ⟨⟨0, ?_⟩, ?_⟩, trivial⟩, ⟨?_, trivial, trivial⟩, ⟨trivial, trivial, ?_⟩,
      ⟨trivial, trivial, trivial⟩, ⟨trivial, ⟨⟨0, ?_⟩, ?_⟩, trivial⟩,
      ⟨trivial, trivial, trivial⟩, ⟨trivial, trivial, trivial⟩,
      ⟨trivial, ⟨⟨0, ?_⟩, ?_⟩, trivial⟩, ⟨?_, trivial, trivial⟩, ⟨?_, trivial, trivial⟩,
      ⟨?_, trivial, trivial⟩, trivial⟩
    any_goals decide
    all_goals
      simp only [Port.Offers, Op.SparesTimedOut]
      decide
  · intro h
    have served := h.order.served
    revert served
    decide

end Wave300.Txmm
