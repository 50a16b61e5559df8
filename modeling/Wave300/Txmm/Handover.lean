import Wave300.Txmm.Submission

/-!
# What becomes of the slots

Whatever state the blocks are in, a section sends each slot it takes from the pool, and each slot
it is given, exactly once, or puts it into the pool.
-/

namespace Wave300.Txmm

variable {n : Nat} {μ σ κ ν : Type} {s t u : Base n μ σ κ ν} {b : Fin n} {p : σ} {l : List σ}
  {new : List (Event n μ σ ν)}

/-- The slot that `msg_send` is called for. -/
def Event.sentSlot : Event n μ σ ν → Option σ
  | .msgSend p _ => some p
  | _ => none

/-- The slots that a section from `s` to `t` calls `msg_send` for, once it has left the lock. -/
def sends (s t : Base n μ σ κ ν) : List σ :=
  (t.log.drop s.log.length).filterMap Event.sentSlot

theorem sends_of_log (log : t.log = s.log ++ new) : sends s t = new.filterMap Event.sentSlot := by
  rw [sends, log, List.drop_left]

/-- The section was given the slots of `l`, and those and the ones of the pool are sent or in the
pool after it. -/
def HandsOver (l : List σ) (s t : Base n μ σ κ ν) : Prop :=
  (sends s t ++ t.pool).Perm (l ++ s.pool)

/-- The section sends nothing and leaves the pool alone. -/
structure Leaves (s t : Base n μ σ κ ν) : Prop where
  pool : t.pool = s.pool
  log : ∃ new, t.log = s.log ++ new ∧ new.filterMap Event.sentSlot = []

namespace Leaves

theorem same (pool : t.pool = s.pool) (log : t.log = s.log) : Leaves s t :=
  ⟨pool, [], log.trans (List.append_nil _).symm, rfl⟩

theorem emit (s : Base n μ σ κ ν) {e : Event n μ σ ν} (silent : e.sentSlot = none) :
    Leaves s (s.emit e) := by
  refine ⟨rfl, [e], rfl, ?_⟩
  rw [List.filterMap_cons_none silent, List.filterMap_nil]

theorem trans (h : Leaves s t) (h' : Leaves t u) : Leaves s u := by
  obtain ⟨new, log, silent⟩ := h.log
  obtain ⟨new', log', silent'⟩ := h'.log
  refine ⟨h'.pool.trans h.pool, new ++ new', ?_, ?_⟩
  · rw [log', log, List.append_assoc]
  · rw [List.filterMap_append, silent, silent', List.append_nil]

theorem handsOver (h : Leaves s t) : HandsOver [] s t := by
  obtain ⟨new, log, silent⟩ := h.log
  rw [HandsOver, sends_of_log log, silent, h.pool]

theorem delBufFromQue (s : Base n μ σ κ ν) (q : Option Que) (b : Fin n) (preserveOrder : Bool) :
    Leaves s (s.delBufFromQue q b preserveOrder) := by
  cases q <;> exact same rfl rfl

theorem free (s : Base n μ σ κ ν) (b : Fin n) : Leaves s (s.free b) :=
  same (free_freed s b).pool (free_freed s b).log

theorem defer (s : Base n μ σ κ ν) (b : Fin n) (reason : ClbReason) : Leaves s (s.defer b reason) :=
  (emit s rfl).trans (same rfl rfl)

theorem getBuf (s : Base n μ σ κ ν) (q : Que) : Leaves s (s.getBuf q).2 := by
  unfold Base.getBuf
  split <;> exact same rfl rfl

theorem scanLoop (now : UInt32) (q : Que) (preserveOrder : Bool) (fuel i : Nat)
    (s : Base n μ σ κ ν) : Leaves s (Base.scanLoop now q preserveOrder fuel i s) := by
  induction fuel generalizing i s with
  | zero => exact same rfl rfl
  | succ fuel ih =>
    rw [Base.scanLoop]
    split
    · exact same rfl rfl
    · refine Leaves.trans ?_ (ih _ _)
      split
      · exact (delBufFromQue ..).trans (same rfl rfl)
      · exact same rfl rfl

theorem drain (s : Base n μ σ κ ν) (reason : ClbReason) : Leaves s (s.drain reason) := by
  simp only [Base.drain]
  split
  · exact ((delBufFromQue s ..).trans (emit _ rfl)).trans (defer ..)
  · exact same rfl rfl

variable [DecidableEq μ]

theorem clbAction (s : Base n μ σ κ ν) (b : Fin n) (m : μ) (action : ClbAction) (now : UInt32) :
    Leaves s (s.clbAction b m action now) := by
  cases action with
  | free =>
    have freed := freeBuf_freed s b false false
    exact (same freed.pool freed.log).trans (same rfl rfl)
  | send | keep => exact same rfl rfl

theorem callUsrClbLocked (s : Base n μ σ κ ν) (b : Fin n) (reason : ClbReason)
    (action : ClbAction) (now : UInt32) : Leaves s (s.callUsrClbLocked b reason action now) := by
  unfold Base.callUsrClbLocked
  split
  · exact same rfl rfl
  · split
    · exact same rfl rfl
    · split
      · exact same rfl rfl
      · exact (emit s rfl).trans (clbAction (s.emit _) ..)

theorem getEmptyData (s : Base n μ σ κ ν) (m : μ) (obj : ν) : Leaves s (s.getEmptyData m obj) := by
  unfold Base.getEmptyData Base.attachData
  split
  · split
    · have taken := getBuf s .free
      generalize s.getBuf .free = found at taken ⊢
      obtain ⟨_ | b, t⟩ := found
      · exact taken.trans (same rfl rfl)
      · exact taken.trans ((emit t rfl).trans (same rfl rfl))
    · exact same rfl rfl
  · exact same rfl rfl

theorem msgCancel (s : Base n μ σ κ ν) (m : μ) : Leaves s (s.msgCancel m) := by
  unfold Base.msgCancel
  split
  · rename_i b _ _
    have freed : Leaves s ((s.free b).setMsg m {}) := (free s b).trans (same rfl rfl)
    exact freed.trans (emit _ rfl)
  · exact emit s rfl

omit [DecidableEq μ] in
theorem onCfm [DecidableEq σ] (s : Base n μ σ κ ν) (p : σ) : Leaves s (s.onCfm p) := by
  unfold Base.onCfm
  split
  · split
    · exact (delBufFromQue ..).trans (defer ..)
    · exact same rfl rfl
  · exact same rfl rfl

end Leaves

namespace HandsOver

/-- A slot that the section was given is sent. -/
theorem bound (bound : ∃ id size vap, t.log = s.log ++ [Event.bound b p id size, .msgSend p vap])
    (pool : t.pool = s.pool) : HandsOver [p] s t := by
  obtain ⟨id, size, vap, log⟩ := bound
  rw [HandsOver, sends_of_log log, pool]
  rfl

theorem sendFirst (s : Base n μ σ κ ν) (p : σ) (some : (s.rings.ring .queued).total ≠ 0) :
    HandsOver [p] s (s.sendFirst p) := by
  apply bound _ (sendFirst_pool s p)
  · exact (s.rings.ring .queued).ptr (s.rings.ring .queued).fromIdx
  · rw [Base.sendFirst, getBuf_some some]
    exact (sendBlockPrepare_bound ..).log

/-- The section takes the first slot of the pool. -/
theorem takes {rest : List σ} (pool : s.pool = p :: rest) (log : t.log = s.log)
    (pool' : t.pool = rest) (h : HandsOver [p] t u) : HandsOver [] s u := by
  rw [HandsOver, sends, log, pool'] at h
  rw [HandsOver, sends, pool]
  exact h

theorem pump_some (s : Base n μ σ κ ν) (p : σ) : HandsOver [p] s (s.pump (some p)) := by
  unfold Base.pump
  split
  · rename_i some
    exact sendFirst s p some
  · have none : sends s (s.msgFreeToPool p) = [] := sends_of_log (List.append_nil _).symm
    change (sends s (s.msgFreeToPool p) ++ (s.pool ++ [p])).Perm _
    rw [none, List.nil_append]
    exact List.perm_append_comm

theorem sendEx (s : Base n μ σ κ ν) (obj : ν) (b : Fin n) (req : Request κ) (now : UInt32) :
    HandsOver [] s (s.sendEx obj b req now) := by
  unfold Base.sendEx
  cases e : s.pool with
  | nil =>
    simp only [Base.msgGetFromPool, Base.setBlock, e, List.head?_nil, List.tail_nil]
    apply Leaves.handsOver
    exact .same e.symm rfl
  | cons p rest =>
    simp only [Base.msgGetFromPool, Base.setBlock, e, List.head?_cons, List.tail_cons]
    split
    · rename_i given
      cases given
      refine takes e ?_ ?_ (bound (sendBlockPrepare_bound ..).log ?_) <;> rfl
    · rename_i given _
      cases given
      refine takes e ?_ ?_ (pump_some _ _) <;> rfl
    · rename_i none
      cases none

theorem msgSend [DecidableEq μ] (s : Base n μ σ κ ν) (m : μ) (req : Request κ) (now : UInt32) :
    HandsOver [] s (s.msgSend m req now) := by
  unfold Base.msgSend
  split
  · exact sendEx ..
  · exact (Leaves.same rfl rfl).handsOver

end HandsOver

variable [DecidableEq μ] [DecidableEq σ]

/-- The sections of the users and of the timer: all but the two of a confirmation. -/
def Op.ByUser : Op n μ σ κ ν → Prop
  | .pump _ | .onCfm _ => False
  | _ => True

instance : DecidablePred (Op.ByUser : Op n μ σ κ ν → Prop)
  | .pump _ | .onCfm _ => .isFalse id
  | .start | .halt | .getEmptyData .. | .msgSend .. | .scanSent _ | .scanQueued _ | .drain _
  | .callUsrClb .. | .msgCancel _ => .isTrue trivial

/-- They send what they take from the pool. -/
theorem Op.ByUser.handsOver {op : Op n μ σ κ ν} (user : op.ByUser) (s : Base n μ σ κ ν) :
    HandsOver [] s (step s op) := by
  cases op with
  | start | halt => exact (Leaves.same rfl rfl).handsOver
  | getEmptyData m obj => exact (Leaves.getEmptyData s m obj).handsOver
  | msgSend m req now => exact HandsOver.msgSend s m req now
  | pump _ | onCfm _ => exact user.elim
  | scanSent now | scanQueued now => exact (Leaves.scanLoop ..).handsOver
  | drain reason => exact (Leaves.drain s reason).handsOver
  | callUsrClb p action now =>
    apply Leaves.handsOver
    have settled : Leaves s (s.settle p) := .same rfl rfl
    simp only [step]
    split
    · exact settled.trans (Leaves.callUsrClbLocked ..)
    · exact .same rfl rfl
  | msgCancel m => exact (Leaves.msgCancel s m).handsOver

end Wave300.Txmm
