import Wave300.Txmm.Partition

/-!
# No message waits while a slot is idle

The complete calls: a confirmation with the pump that follows it, and a run of the timer
with the callbacks of all the blocks it drains. Between them nothing is in progress, and a
queued message means that the pool is empty, unless the timer has queued a message again: it
does not pump.
-/

namespace Wave300.Txmm

open Wave300.Lib

variable {n : Nat} {μ σ κ ν : Type} {s s' : Base n μ σ κ ν} {b : Fin n} {q : Que} {m : μ}

section
variable [DecidableEq μ] [DecidableEq σ]

namespace Base

/-- The call in progress runs its callback. -/
def finish (s : Base n μ σ κ ν) (answer : Fin n → ClbAction) (clock : Fin n → UInt32) :
    Base n μ σ κ ν :=
  match s.pending with
  | [] => s
  | p :: _ => step s (.callUsrClb p (answer p.block) (clock p.block))

/-- `txmm_on_cfm` of `hw_mmb.c`: `mtlk_txmm_on_cfm`, then `mtlk_txmm_pump` of the slot. -/
def confirm (s : Base n μ σ κ ν) (pmsg : σ) (action : ClbAction) (now : UInt32) :
    Base n μ σ κ ν :=
  ((s.onCfm pmsg).finish (fun _ => action) fun _ => now).pump (some pmsg)

/-- The `for` of `_mtlk_txmm_on_timer_que`. It ends when every timed out block is drained. -/
def drainLoop (reason : ClbReason) (answer : Fin n → ClbAction) (clock : Fin n → UInt32) :
    Nat → Base n μ σ κ ν → Base n μ σ κ ν
  | 0, s => s
  | fuel + 1, s =>
    if (s.rings.ring .timedOut).total = 0 then s
    else drainLoop reason answer clock fuel ((s.drain reason).finish answer clock)

/-- `_mtlk_txmm_on_timer_que` -/
def onTimerQue (s : Base n μ σ κ ν) (now : UInt32) (q : Que) (reason : ClbReason)
    (preserveOrder : Bool) (answer : Fin n → ClbAction) (clock : Fin n → UInt32) :
    Base n μ σ κ ν :=
  drainLoop reason answer clock n (s.scan now q preserveOrder)

/-- `_mtlk_txmm_on_timer`. The callback of `b` answers `answer r b`, at the time
`clock r b`, when it is called for `r`. -/
def onTimer (s : Base n μ σ κ ν) (now : UInt32) (answer : ClbReason → Fin n → ClbAction)
    (clock : ClbReason → Fin n → UInt32) : Base n μ σ κ ν :=
  let s := s.onTimerQue now .sent .timeoutSent false (answer .timeoutSent) (clock .timeoutSent)
  s.onTimerQue now .queued .timeoutUnsent true (answer .timeoutUnsent) (clock .timeoutUnsent)

end Base

inductive Call (n : Nat) (μ σ κ ν : Type) where
  | start
  | halt
  | getEmptyData (m : μ) (obj : ν)
  | msgSend (m : μ) (req : Request κ) (now : UInt32)
  | confirm (pmsg : σ) (action : ClbAction) (now : UInt32)
  | onTimer (now : UInt32) (answer : ClbReason → Fin n → ClbAction)
      (clock : ClbReason → Fin n → UInt32)
  | msgCancel (m : μ)

def call (s : Base n μ σ κ ν) : Call n μ σ κ ν → Base n μ σ κ ν
  | .start => step s .start
  | .halt => step s .halt
  | .getEmptyData m obj => s.getEmptyData m obj
  | .msgSend m req now => s.msgSend m req now
  | .confirm pmsg action now => s.confirm pmsg action now
  | .onTimer now answer clock => s.onTimer now answer clock
  | .msgCancel m => s.msgCancel m

end

/-- No call is in progress. -/
structure Rested (s : Base n μ σ κ ν) : Prop where
  sound : Sound s
  pending : s.pending = []
  drained : ∀ b, s.rings.home b ≠ some .timedOut

/-- A message is queued only when the pool has no slot for it. -/
def Conserving (s : Base n μ σ κ ν) : Prop :=
  (s.rings.ring .queued).total ≠ 0 → s.pool = []

/-- The timer queues a message again that it finds timed out at the hardware. A full queue of
sent blocks is not scanned. -/
def Requeues (s : Base n μ σ κ ν) (now : UInt32) (answer : Fin n → ClbAction) : Prop :=
  (s.rings.ring .sent).total ≠ n ∧
    ∃ b, s.rings.home b = some .sent ∧ Base.Expired now (s.blocks b) ∧ answer b = .send

/-- The user sends only a message whose block it holds. -/
def Call.InTurn (s : Base n μ σ κ ν) : Call n μ σ κ ν → Prop
  | .msgSend m _ _ => ∃ b, (s.msgs m).data = some b ∧ s.rings.home b = none
  | _ => True

/-- The timer queues no message again while the pool has a slot. -/
def Call.Pumped (s : Base n μ σ κ ν) : Call n μ σ κ ν → Prop
  | .onTimer now answer _ => Requeues s now (answer .timeoutSent) → s.pool = []
  | _ => True

theorem Sound.total_ne_zero (h : Sound s) :
    (s.rings.ring q).total ≠ 0 ↔ ∃ b, s.rings.home b = some q := by
  constructor
  · intro some
    exact ⟨_, h.home_from some⟩
  · rintro ⟨b, home⟩
    exact Nat.ne_of_gt (Nat.zero_lt_of_lt (h.seated.seat b q home).1.2)

theorem Sound.conserving_iff (h : Sound s) :
    Conserving s ↔ ∀ b, s.rings.home b = some .queued → s.pool = [] := by
  rw [Conserving, h.total_ne_zero]
  exact ⟨fun c b home => c ⟨b, home⟩, fun c ⟨b, home⟩ => c b home⟩

variable [DecidableEq μ] [DecidableEq σ]

/-- A call that took `b` out of its queue has run the callback of `b`, and `b` is now
at `x`. -/
structure Finished (answer : Fin n → ClbAction) (s s' : Base n μ σ κ ν) (b : Fin n)
    (x : Option Que) : Prop where
  sound : Sound s'
  pending : s'.pending = []
  pool : s'.pool = s.pool
  home : s'.rings.home = Function.update s.rings.home b x
  in_time : x ≠ some .timedOut
  requeued : x = some .queued → answer b = .send

theorem finish_finished {t : Base n μ σ κ ν} {reason : ClbReason} (answer : Fin n → ClbAction)
    (clock : Fin n → UInt32) (h : Sound t)
    (waiting : t.pending = [⟨b, (s.blocks b).msg, reason⟩]) (pool : t.pool = s.pool)
    (home : t.rings.home = Function.update s.rings.home b none) :
    ∃ x, Finished answer s (t.finish answer clock) b x := by
  have mem : (⟨b, (s.blocks b).msg, reason⟩ : PendingClb n μ) ∈ t.pending := by
    rw [waiting]
    exact List.mem_singleton_self _
  have run : t.finish answer clock =
      step t (.callUsrClb ⟨b, (s.blocks b).msg, reason⟩ (answer b) (clock b)) := by
    unfold Base.finish
    rw [waiting]
  have sound : Sound (t.finish answer clock) := by
    rw [run]
    exact h.step _ ⟨trivial, trivial, trivial⟩
  have none_left : t.pending.erase ⟨b, (s.blocks b).msg, reason⟩ = [] := by
    rw [waiting, List.erase_cons_head]
  obtain ⟨out, clb, -⟩ := h.owned.waiting _ mem
  have alive : t.rings.home b ≠ some .free := by
    rw [out]
    decide
  obtain ⟨m, msg, data⟩ := h.owned.msg b alive
  simp only [step, if_pos mem] at run
  rw [callUsrClbLocked_eq (s := t.settle _) msg data clb] at run
  cases action : answer b with
  | free =>
    rw [action, Base.clbAction, freeBuf_of_ne (s := (t.settle _).emit _) alive] at run
    refine ⟨some .free, sound, ?_, ?_, ?_, by decide, by simp⟩ <;> rw [run]
    · exact none_left
    · exact pool
    · exact (congrArg (Function.update · b _) home).trans (Function.update_idem ..)
  | send =>
    rw [action] at run
    refine ⟨some .queued, sound, ?_, ?_, ?_, by decide, fun _ => action⟩ <;> rw [run]
    · exact none_left
    · exact pool
    · exact (congrArg (Function.update · b _) home).trans (Function.update_idem ..)
  | keep =>
    rw [action] at run
    refine ⟨none, sound, ?_, ?_, ?_, by decide, by simp⟩ <;> rw [run]
    · exact none_left
    · exact pool
    · exact home

theorem drain_finished (h : Sound s) (pending : s.pending = [])
    (some : (s.rings.ring .timedOut).total ≠ 0) (reason : ClbReason)
    (answer : Fin n → ClbAction) (clock : Fin n → UInt32) :
    ∃ b x, s.rings.home b = .some .timedOut ∧
      Finished answer s ((s.drain reason).finish answer clock) b x := by
  have was := h.home_from some
  generalize e : (s.rings.ring .timedOut).ptr (s.rings.ring .timedOut).fromIdx = b at was
  have drained : s.drain reason = ((s.delBufFromQue (.some .timedOut) b false).emit
      (.msgTimedOut (s.blocks b).id)).defer b reason := by
    unfold Base.drain
    simp only [if_pos some, e]
  obtain ⟨x, finished⟩ := finish_finished (s := s) (b := b) (t := s.drain reason) answer clock
    (h.drain reason)
    (by rw [drained]; exact congrArg (· ++ _) pending)
    (by rw [drained]; rfl)
    (by rw [drained]; exact Rings.unlink_home false (h.seated.seat b _ was).2)
  exact ⟨b, x, was, finished⟩

theorem onCfm_finished (h : Sound s) (pending : s.pending = []) (pmsg : σ)
    (answer : Fin n → ClbAction) (clock : Fin n → UInt32) :
    (s.onCfm pmsg).finish answer clock = s ∨
      ∃ b x, Finished answer s ((s.onCfm pmsg).finish answer clock) b x := by
  have nothing : s.finish answer clock = s := by
    unfold Base.finish
    rw [pending]
  by_cases some : (s.rings.ring .sent).total ≠ 0
  · cases found : s.findSent pmsg n (s.rings.ring .sent).fromIdx with
    | none =>
      left
      simp only [Base.onCfm, if_pos some, found, nothing]
    | some b =>
      right
      have sent := (findSent_holds h ((h.seated.valid .sent).holds_from some) found).1
      have unlinked : s.onCfm pmsg =
          (s.delBufFromQue (.some .sent) b false).defer b .confirmed := by
        simp only [Base.onCfm, if_pos some, found]
      obtain ⟨x, finished⟩ := finish_finished (s := s) (b := b) (t := s.onCfm pmsg) answer clock
        (h.onCfm pmsg)
        (by rw [unlinked]; exact congrArg (· ++ _) pending)
        (by rw [unlinked]; rfl)
        (by rw [unlinked]; exact Rings.unlink_home false (h.seated.seat b _ sent).2)
      exact ⟨b, x, finished⟩
  · left
    simp only [Base.onCfm, if_neg some, nothing]

omit [DecidableEq μ] [DecidableEq σ] in
/-- Taking a block out of a queue shortens it. -/
theorem Sound.total_lt {x : Option Que} (h : Sound s) (h' : Sound s')
    (was : s.rings.home b = some q) (ne : x ≠ some q)
    (home : s'.rings.home = Function.update s.rings.home b x) :
    (s'.rings.ring q).total < (s.rings.ring q).total := by
  rw [← h.seated.card_home q, ← h'.seated.card_home q, home]
  refine Finset.card_lt_card ⟨?_, ?_⟩
  · intro c mem
    have home_c := (Finset.mem_filter.1 mem).2
    have e : c ≠ b := by
      rintro rfl
      rw [Function.update_self] at home_c
      exact ne home_c
    rw [Function.update_of_ne e] at home_c
    exact Finset.mem_filter.2 ⟨Finset.mem_univ c, home_c⟩
  · intro back
    have mem := back (Finset.mem_filter.2 ⟨Finset.mem_univ b, was⟩)
    have home_b := (Finset.mem_filter.1 mem).2
    rw [Function.update_self] at home_b
    exact ne home_b

theorem drainLoop_rested {reason : ClbReason} {answer : Fin n → ClbAction}
    {clock : Fin n → UInt32} {fuel : Nat} (h : Sound s) (pending : s.pending = [])
    (enough : (s.rings.ring .timedOut).total ≤ fuel) (conserving : Conserving s)
    (pumped : ∀ b, s.rings.home b = some .timedOut → answer b = .send → s.pool = []) :
    Rested (Base.drainLoop reason answer clock fuel s) ∧
      Conserving (Base.drainLoop reason answer clock fuel s) := by
  have rested (s : Base n μ σ κ ν) (h : Sound s) (pending : s.pending = [])
      (none : (s.rings.ring .timedOut).total = 0) : Rested s :=
    ⟨h, pending, fun b home => h.total_ne_zero.2 ⟨b, home⟩ none⟩
  induction fuel generalizing s with
  | zero => exact ⟨rested s h pending (Nat.le_zero.1 enough), conserving⟩
  | succ fuel ih =>
    rw [Base.drainLoop]
    split
    · rename_i none
      exact ⟨rested s h pending none, conserving⟩
    · rename_i some
      obtain ⟨b, x, was, done⟩ := drain_finished h pending some reason answer clock
      have fewer := h.total_lt done.sound was done.in_time done.home
      rw [h.conserving_iff] at conserving
      refine ih done.sound done.pending (by omega) (done.sound.conserving_iff.2 ?_) ?_
      · intro c queued
        rw [done.pool]
        by_cases e : c = b
        · subst e
          rw [done.home, Function.update_self] at queued
          exact pumped c was (done.requeued queued)
        · rw [done.home, Function.update_of_ne e] at queued
          exact conserving c queued
      · intro c timedOut send
        rw [done.pool]
        by_cases e : c = b
        · subst e
          rw [done.home, Function.update_self] at timedOut
          exact absurd timedOut done.in_time
        · rw [done.home, Function.update_of_ne e] at timedOut
          exact pumped c timedOut send

/-- The scan of `q` moves the blocks of `q` that have expired, and nothing else. -/
structure Scanned (now : UInt32) (q : Que) (s t : Base n μ σ κ ν) : Prop where
  pool : t.pool = s.pool
  pending : t.pending = s.pending
  blocks : t.blocks = s.blocks
  moved : ∀ c, t.rings.home c = s.rings.home c ∨ (s.rings.home c = some q ∧
    Base.Expired now (s.blocks c) ∧ t.rings.home c = some .timedOut)

omit [DecidableEq μ] [DecidableEq σ] in
theorem scan_scanned (now : UInt32) (preserveOrder : Bool) (ne : q ≠ .free)
    (apart : q ≠ .timedOut) (h : Sound s) :
    Sound (s.scan now q preserveOrder) ∧ Scanned now q s (s.scan now q preserveOrder) := by
  refine Sound.scan (P := Scanned now q s) now preserveOrder ne apart ?_ h
    ⟨rfl, rfl, rfl, fun c => .inl rfl⟩
  intro t b sound so_far home expired
  refine ⟨so_far.pool, so_far.pending, so_far.blocks, fun c => ?_⟩
  rw [sound.expire_home home]
  by_cases e : c = b
  · subst e
    rw [Function.update_self]
    have was : s.rings.home c = some q := by
      obtain same | ⟨was, -⟩ := so_far.moved c
      · exact same.symm.trans home
      · exact was
    exact .inr ⟨was, so_far.blocks ▸ expired, rfl⟩
  · rw [Function.update_of_ne e]
    exact so_far.moved c

omit [DecidableEq μ] [DecidableEq σ] in
/-- In a full queue the walk is over before it begins. -/
theorem scan_full {now : UInt32} {preserveOrder : Bool} (h : Sound s)
    (full : (s.rings.ring q).total = n) : s.scan now q preserveOrder = s := by
  have ends := (h.seated.valid q).from_eq_to_of_full full
  unfold Base.scan
  cases n with
  | zero => rfl
  | succ n => rw [Base.scanLoop, if_pos ends]

theorem onTimerQue_rested {now : UInt32} {reason : ClbReason} {preserveOrder : Bool}
    {answer : Fin n → ClbAction} {clock : Fin n → UInt32} (ne : q ≠ .free)
    (apart : q ≠ .timedOut) (h : Rested s) (conserving : Conserving s)
    (pumped : ∀ b, (s.rings.ring q).total ≠ n → s.rings.home b = some q →
      Base.Expired now (s.blocks b) → answer b = .send → s.pool = []) :
    Rested (s.onTimerQue now q reason preserveOrder answer clock) ∧
      Conserving (s.onTimerQue now q reason preserveOrder answer clock) := by
  obtain ⟨sound, scanned⟩ := scan_scanned now preserveOrder ne apart h.sound
  refine drainLoop_rested sound (scanned.pending.trans h.pending)
    (sound.seated.valid .timedOut).total_le (sound.conserving_iff.2 ?_) ?_
  · intro c queued
    rw [scanned.pool]
    obtain same | ⟨-, -, timedOut⟩ := scanned.moved c
    · exact h.sound.conserving_iff.1 conserving c (same.symm.trans queued)
    · rw [queued] at timedOut
      cases timedOut
  · intro c timedOut send
    rw [scanned.pool]
    obtain same | ⟨was, expired, -⟩ := scanned.moved c
    · exact absurd (same.symm.trans timedOut) (h.drained c)
    · refine pumped c ?_ was expired send
      intro full
      rw [scan_full h.sound full] at timedOut
      exact h.drained c timedOut

theorem onTimer_rested {now : UInt32} {answer : ClbReason → Fin n → ClbAction}
    {clock : ClbReason → Fin n → UInt32} (h : Rested s) (conserving : Conserving s)
    (pumped : Requeues s now (answer .timeoutSent) → s.pool = []) :
    Rested (s.onTimer now answer clock) ∧ Conserving (s.onTimer now answer clock) := by
  obtain ⟨rested, conserving'⟩ : Rested (s.onTimerQue now .sent .timeoutSent false
      (answer .timeoutSent) (clock .timeoutSent)) ∧ Conserving (s.onTimerQue now .sent
      .timeoutSent false (answer .timeoutSent) (clock .timeoutSent)) := by
    apply onTimerQue_rested (by decide) (by decide) h conserving
    intro b room sent expired send
    exact pumped ⟨room, b, sent, expired, send⟩
  apply onTimerQue_rested (by decide) (by decide) rested conserving'
  intro b _ queued _ _
  exact rested.sound.conserving_iff.1 conserving' b queued

omit [DecidableEq μ] [DecidableEq σ] in
/-- The pump of a slot takes one queued block, so it is enough that with two of them queued
the pool is empty. -/
theorem pump_rested (h : Rested s) (pmsg : σ)
    (spare : ∀ b c, b ≠ c → s.rings.home b = some .queued → s.rings.home c = some .queued →
      s.pool = []) : Rested (s.pump (some pmsg)) ∧ Conserving (s.pump (some pmsg)) := by
  have sound := h.sound.pump (some pmsg)
  rw [sound.conserving_iff]
  unfold Base.pump at sound ⊢
  by_cases waiting : (s.rings.ring .queued).total ≠ 0
  · have first := h.sound.home_from waiting
    simp only [if_pos waiting, Base.sendFirst, getBuf_some waiting] at sound ⊢
    generalize (s.rings.ring .queued).ptr (s.rings.ring .queued).fromIdx = b at first sound ⊢
    refine ⟨⟨sound, h.pending, fun c timedOut => ?_⟩, fun c queued => ?_⟩
    · by_cases e : c = b
      · subst e
        cases (Function.update_self ..).symm.trans timedOut
      · exact h.drained c ((Function.update_of_ne e _ _).symm.trans timedOut)
    · by_cases e : c = b
      · subst e
        cases (Function.update_self ..).symm.trans queued
      · exact spare c b e ((Function.update_of_ne e _ _).symm.trans queued) first
  · simp only [if_neg waiting] at sound ⊢
    refine ⟨⟨sound, h.pending, h.drained⟩, fun c queued => ?_⟩
    exact absurd (h.sound.total_ne_zero.2 ⟨c, queued⟩) waiting

theorem confirm_rested {action : ClbAction} {now : UInt32} (h : Rested s)
    (conserving : Conserving s) (pmsg : σ) :
    Rested (s.confirm pmsg action now) ∧ Conserving (s.confirm pmsg action now) := by
  rw [h.sound.conserving_iff] at conserving
  obtain same | ⟨b, x, done⟩ :=
    onCfm_finished h.sound h.pending pmsg (fun _ => action) fun _ => now
  · rw [Base.confirm, same]
    exact pump_rested h pmsg fun c _ _ queued _ => conserving c queued
  · refine pump_rested ⟨done.sound, done.pending, fun c timedOut => ?_⟩ pmsg ?_
    · by_cases e : c = b
      · subst e
        rw [done.home, Function.update_self] at timedOut
        exact done.in_time timedOut
      · rw [done.home, Function.update_of_ne e] at timedOut
        exact h.drained c timedOut
    · intro c d ne queued_c queued_d
      rw [done.home] at queued_c queued_d
      rw [done.pool]
      by_cases e : c = b
      · rw [Function.update_of_ne (e ▸ ne.symm)] at queued_d
        exact conserving d queued_d
      · rw [Function.update_of_ne e] at queued_c
        exact conserving c queued_c

omit [DecidableEq μ] [DecidableEq σ] in
/-- A call that takes no slot and moves blocks at most out of their queues. -/
theorem Rested.leave (h : Rested s) (sound : Sound s') (pending : s'.pending = s.pending)
    (pool : s'.pool = s.pool) (home : ∀ c, s'.rings.home c = s.rings.home c ∨
      (s'.rings.home c ≠ some .timedOut ∧ s'.rings.home c ≠ some .queued))
    (conserving : Conserving s) : Rested s' ∧ Conserving s' := by
  refine ⟨⟨sound, pending.trans h.pending, fun c => ?_⟩, sound.conserving_iff.2 fun c queued => ?_⟩
  · obtain same | ⟨ne, -⟩ := home c
    · rw [same]
      exact h.drained c
    · exact ne
  · obtain same | ⟨-, ne⟩ := home c
    · rw [pool]
      exact h.sound.conserving_iff.1 conserving c (same.symm.trans queued)
    · exact absurd queued ne

omit [DecidableEq σ] in
theorem getEmptyData_effect (s : Base n μ σ κ ν) (m : μ) (obj : ν) :
    (s.getEmptyData m obj).pending = s.pending ∧ (s.getEmptyData m obj).pool = s.pool ∧
      ∀ c, (s.getEmptyData m obj).rings.home c = s.rings.home c ∨
        (s.getEmptyData m obj).rings.home c = none := by
  unfold Base.getEmptyData
  split
  · unfold Base.attachData
    split
    · by_cases some : (s.rings.ring .free).total = 0
      · rw [getBuf_none some]
        exact ⟨rfl, rfl, fun c => .inl rfl⟩
      · rw [getBuf_some some]
        refine ⟨rfl, rfl, fun c => ?_⟩
        by_cases e : c = (s.rings.ring .free).ptr (s.rings.ring .free).fromIdx
        · subst e
          exact .inr (Function.update_self ..)
        · exact .inl (Function.update_of_ne e _ _)
    · exact ⟨rfl, rfl, fun c => .inl rfl⟩
  · exact ⟨rfl, rfl, fun c => .inl rfl⟩

omit [DecidableEq σ] in
theorem getEmptyData_rested (h : Rested s) (m : μ) (obj : ν) (conserving : Conserving s) :
    Rested (s.getEmptyData m obj) ∧ Conserving (s.getEmptyData m obj) := by
  obtain ⟨pending, pool, home⟩ := getEmptyData_effect s m obj
  refine h.leave (h.sound.getEmptyData m obj) pending pool (fun c => ?_) conserving
  apply (home c).imp_right
  intro out
  simp [out]

omit [DecidableEq σ] in
theorem msgCancel_rested (h : Rested s) (m : μ) (conserving : Conserving s) :
    Rested (s.msgCancel m) ∧ Conserving (s.msgCancel m) := by
  have sound : Sound (s.msgCancel m) := by
    refine h.sound.msgCancel m fun b _ => ⟨h.drained b, ?_⟩
    rw [h.pending]
    exact List.not_mem_nil
  unfold Base.msgCancel at sound ⊢
  split at sound
  · rename_i obj b _ _
    have freed := free_freed s b
    refine h.leave sound freed.pending freed.pool (fun c => ?_) conserving
    by_cases e : c = b
    · subst e
      right
      have home : ((s.free c).setMsg m {}).rings.home c = some .free := freed.home
      simp [Base.emit, home]
    · exact .inl (freed.others c e).1
  · exact h.leave sound rfl rfl (fun c => .inl rfl) conserving

omit [DecidableEq μ] [DecidableEq σ] in
/-- With a slot in the pool nothing is queued, and the message goes to the hardware at once. -/
theorem msgSend_rested {req : Request κ} {now : UInt32} (h : Rested s)
    (data : (s.msgs m).data = some b) (out : s.rings.home b = none)
    (conserving : Conserving s) :
    Rested (s.msgSend m req now) ∧ Conserving (s.msgSend m req now) := by
  have idle : b ∉ s.pending.map PendingClb.block := by
    rw [h.pending]
    exact List.not_mem_nil
  have sound := h.sound.msgSend data out idle req now
  cases obj : (s.msgs m).obj with
  | none =>
    rw [(h.sound.owned.obj m).1 obj] at data
    cases data
  | some obj' =>
    simp only [Base.msgSend, data, obj, Base.sendEx, Base.msgGetFromPool, Base.setBlock] at sound ⊢
    cases pool : s.pool with
    | nil =>
      simp only [pool, List.head?_nil, List.tail_nil] at sound ⊢
      refine ⟨⟨sound, h.pending, fun c timedOut => ?_⟩, fun _ => rfl⟩
      by_cases e : c = b
      · subst e
        cases (Function.update_self ..).symm.trans timedOut
      · exact h.drained c ((Function.update_of_ne e _ _).symm.trans timedOut)
    | cons p rest =>
      have unqueued : (s.rings.ring .queued).total = 0 := by
        by_contra waiting
        rw [conserving waiting] at pool
        cases pool
      simp only [pool, List.head?_cons, List.tail_cons, unqueued] at sound ⊢
      refine ⟨⟨sound, h.pending, fun c timedOut => ?_⟩, sound.conserving_iff.2 fun c queued => ?_⟩
      · by_cases e : c = b
        · subst e
          cases (Function.update_self ..).symm.trans timedOut
        · exact h.drained c ((Function.update_of_ne e _ _).symm.trans timedOut)
      · by_cases e : c = b
        · subst e
          cases (Function.update_self ..).symm.trans queued
        · have was := (Function.update_of_ne e _ _).symm.trans queued
          exact absurd unqueued (h.sound.total_ne_zero.2 ⟨c, was⟩)

theorem call_rested (h : Rested s) (conserving : Conserving s) (c : Call n μ σ κ ν)
    (inTurn : c.InTurn s) (pumped : c.Pumped s) : Rested (call s c) ∧ Conserving (call s c) := by
  cases c with
  | start =>
    have sound := h.sound.step .start ⟨trivial, trivial, trivial⟩
    exact h.leave sound rfl rfl (fun c => .inl rfl) conserving
  | halt =>
    have sound := h.sound.step .halt ⟨trivial, trivial, trivial⟩
    exact h.leave sound rfl rfl (fun c => .inl rfl) conserving
  | getEmptyData m obj => exact getEmptyData_rested h m obj conserving
  | msgSend m req now =>
    obtain ⟨b, data, out⟩ := inTurn
    exact msgSend_rested h data out conserving
  | confirm pmsg action now => exact confirm_rested h conserving pmsg
  | onTimer now answer clock => exact onTimer_rested h conserving pumped
  | msgCancel m => exact msgCancel_rested h m conserving

/-- In every run of complete calls in which the timer queues no message again while the pool
has a slot, a message is queued only when the pool is empty. -/
theorem queued_only_without_slot [NeZero n] {maxPayloadSize : UInt16} {pool : List σ}
    (run : Runs call (fun s c => c.InTurn s ∧ c.Pumped s) (Base.init n maxPayloadSize pool) s) :
    Conserving s := by
  have both : Rested s ∧ Conserving s := by
    refine run.invariant (P := fun s => Rested s ∧ Conserving s) ?_ ?_
    · refine ⟨⟨init_sound maxPayloadSize pool, rfl, fun b => ?_⟩, fun waiting => ?_⟩
      · simp [Base.init]
      · exact absurd rfl waiting
    · rintro s c ⟨rested, conserving⟩ ⟨inTurn, pumped⟩
      exact call_rested rested conserving c inTurn pumped
  exact both.2

/-- A message queued for want of a slot goes out with the slot of the one confirmed. -/
theorem queued_only_without_slot_after_confirmation :
    Conserving ([.start, .getEmptyData 1 (), .msgSend 1 ⟨5, 10, (), 0⟩ 0, .getEmptyData 2 (),
      .msgSend 2 ⟨6, 10, (), 0⟩ 0, .confirm 7 .free 0].foldl call
        (Base.init 2 64 [7] : Base 2 Nat Nat Unit Unit)) := by
  refine queued_only_without_slot (Runs.of_allowed ?_)
  refine ⟨⟨trivial, trivial⟩, ⟨trivial, trivial⟩, ⟨⟨0, ?_⟩, trivial⟩, ⟨trivial, trivial⟩,
    ⟨⟨1, ?_⟩, trivial⟩, ⟨trivial, trivial⟩, trivial⟩ <;> decide

/-- A message times out at the hardware and its callback asks for it to be sent again, while
the pool has a slot. -/
theorem timer_queues_beside_idle_slot :
    ∃ s : Base 2 Nat Nat Unit Unit, Runs call (fun s c => c.InTurn s) (Base.init 2 64 [7, 8]) s ∧
      ¬Conserving s := by
  refine ⟨_, Runs.of_allowed (l := [.start, .getEmptyData 1 (), .msgSend 1 ⟨5, 10, (), 20⟩ 0,
    .onTimer 100 (fun _ _ => .send) fun _ _ => 100]) ?_, ?_⟩
  · refine ⟨trivial, trivial, ⟨0, ?_⟩, trivial, trivial⟩
    decide
  · intro conserving
    have pool := conserving (by decide)
    revert pool
    decide

end Wave300.Txmm
