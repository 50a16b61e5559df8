import Wave300.Txmm.Partition

/-!
# Recovery

`mtlk_txmm_restore` runs the callback of a queued or sent block while the block is still
linked. A callback that frees the block leaves its entry in the queue, and a block that is
freed without its callback leaves its message attached to it.
-/

namespace Wave300.Txmm

open Wave300.Lib

variable {n : Nat} {μ σ κ ν : Type} {s s' s₀ : Base n μ σ κ ν} {b : Fin n} {q : Que} {m : μ}

/-- What the assertions at the end of `mtlk_txmm_restore` say, and that no message is
attached to a freed block. -/
structure Restored (s : Base n μ σ κ ν) : Prop where
  fault : s.fault = false
  empty : ∀ q, q ≠ .free →
    (s.rings.ring q).fromIdx = (s.rings.ring q).toIdx ∧ (s.rings.ring q).total = 0
  full : (s.rings.ring .free).fromIdx = (s.rings.ring .free).toIdx ∧
    (s.rings.ring .free).total = n
  once : ∀ b, ∃! i, (s.rings.ring .free).Holds n i ∧ (s.rings.ring .free).ptr i = b
  data : ∀ m b, (s.msgs m).data = some b → s.rings.home b ≠ some .free

/-- The entries of the two queues that `mtlk_txmm_restore` empties. -/
def Base.load (s : Base n μ σ κ ν) : Nat :=
  (s.rings.ring .sent).total + (s.rings.ring .queued).total

theorem Sound.load_eq (h : Sound s) : s.load = (Finset.univ.filter s.Busy).card := by
  rw [Base.load, ← h.seated.card_home .sent, ← h.seated.card_home .queued,
    ← Finset.card_union_of_disjoint, ← Finset.filter_or]
  · rfl
  · rw [Finset.disjoint_filter]
    intro b _ sent queued
    rw [sent] at queued
    cases queued

theorem delBufFromQue_load (b : Fin n) (preserveOrder : Bool) :
    s.load ≤ (s.delBufFromQue (s.rings.home b) b preserveOrder).load +
      if s.Busy b then 1 else 0 := by
  cases home : s.rings.home b with
  | none => exact Nat.le_add_right ..
  | some q =>
    have fewer : (s.rings.ring q).total ≤
        ((s.rings.unlink n q b preserveOrder).ring q).total + 1 := by
      by_cases found : (s.rings.ring q).ptr (s.rings.idx b) = b
      · rw [Rings.unlink_total preserveOrder found]
        omega
      · rw [Rings.unlink, if_neg found]
        omega
    have others (q' : Que) (ne : q' ≠ q) :
        (s.rings.unlink n q b preserveOrder).ring q' = s.rings.ring q' :=
      Rings.unlink_others preserveOrder ne
    simp only [Base.load, Base.delBufFromQue, Base.Busy, home, Option.some_inj]
    cases q with
    | free =>
      rw [others .sent (by decide), others .queued (by decide)]
      exact Nat.le_add_right ..
    | timedOut =>
      rw [others .sent (by decide), others .queued (by decide)]
      exact Nat.le_add_right ..
    | sent =>
      rw [others .queued (by decide), if_pos (.inl rfl)]
      omega
    | queued =>
      rw [others .sent (by decide), if_pos (.inr rfl)]
      omega

theorem putBuf_load (s : Base n μ σ κ ν) (q : Que) (b : Fin n) : s.load ≤ (s.putBuf q b).load := by
  have more (q' : Que) : (s.rings.ring q').total ≤ ((s.rings.put n q b).ring q').total := by
    by_cases e : q' = q
    · subst e
      simp only [Rings.put, Function.update_self, Ring.push]
      omega
    · simp only [Rings.put, Function.update_of_ne e, le_refl]
  exact Nat.add_le_add (more .sent) (more .queued)

theorem freeBuf_load (s : Base n μ σ κ ν) (b : Fin n) (del preserveOrder : Bool) :
    s.load ≤ (s.freeBuf b del preserveOrder).load + if s.Busy b ∧ del then 1 else 0 := by
  unfold Base.freeBuf
  split
  · cases del with
    | false => exact (putBuf_load (s.zeroBlock b) .free b).trans (Nat.le_add_right ..)
    | true =>
      have unlinked := delBufFromQue_load (s := s) b preserveOrder
      have stored := putBuf_load
        ((s.delBufFromQue (s.rings.home b) b preserveOrder).zeroBlock b) .free b
      simp only [and_true, if_true]
      exact unlinked.trans (Nat.add_le_add_right stored _)
  · exact Nat.le_add_right ..

/-- What the loop body of `mtlk_txmm_restore` does to block `b`: only a callback that frees
the block detaches its message, and then no entry of a queue is removed. -/
structure Discarded (s s' : Base n μ σ κ ν) (b : Fin n) (action : ClbAction) : Prop where
  home : s'.rings.home b = some .free
  others : ∀ c, c ≠ b → s'.rings.home c = s.rings.home c ∧ s'.blocks c = s.blocks c
  msgs : ∀ m, (s.msgs m).data ≠ some b ∨ ¬(s.Busy b ∧ action = .free) → s'.msgs m = s.msgs m
  load : s.load ≤ s'.load + if s.Busy b ∧ action ≠ .free then 1 else 0

theorem freeBuf_discarded (action : ClbAction) (held : s.Busy b → action ≠ .free) :
    Discarded s (s.freeBuf b true false) b action := by
  have freed := freeBuf_freed s b true false
  have load := freeBuf_load s b true false
  refine ⟨freed.home, freed.others, fun m _ => congrFun freed.msgs m, load.trans ?_⟩
  by_cases busy : s.Busy b
  · rw [if_pos ⟨busy, rfl⟩, if_pos ⟨busy, held busy⟩]
  · rw [if_neg fun h => busy h.1, if_neg fun h => busy h.1]

section
variable [DecidableEq μ]

theorem restoreBlock_discarded {action : ClbAction} {now : UInt32}
    (owner : s.Busy b → ∃ m, (s.blocks b).msg = some m ∧ (s.msgs m).data = some b)
    (clb : s.Busy b → (s.blocks b).clb.isSome) :
    Discarded s (s.restoreBlock b action now) b action := by
  unfold Base.restoreBlock
  by_cases busy : s.Busy b
  · obtain ⟨m, msg, data⟩ := owner busy
    rw [if_pos busy, callUsrClbLocked_eq msg data (clb busy)]
    cases action with
    | free =>
      have freed := freeBuf_freed (s.emit (.called b m .rcvryDiscard)) b false false
      have load := freeBuf_load (s.emit (.called b m .rcvryDiscard)) b false false
      rw [Base.clbAction]
      -- the block is free now, and `free_buf` does nothing more to it
      rw [freeBuf_of_free (s := Base.setMsg _ m {}) freed.home]
      refine ⟨freed.home, freed.others, ?_, ?_⟩
      · rintro m' (other | kept)
        · have ne : m' ≠ m := by
            rintro rfl
            exact other data
          exact (Function.update_of_ne ne _ _).trans (congrFun freed.msgs m')
        · exact absurd ⟨busy, rfl⟩ kept
      · rw [if_neg fun h => Bool.false_ne_true h.2] at load
        rw [if_neg fun h => h.2 rfl]
        exact load
    | send =>
      rw [Base.clbAction]
      simp only
      set s₁ := (s.emit (.called b m .rcvryDiscard)).setBlock b _
      have freed := freeBuf_freed (s₁.putBuf .queued b) b true false
      have more : s.load ≤ (s₁.putBuf .queued b).load := putBuf_load s₁ .queued b
      have load := freeBuf_load (s₁.putBuf .queued b) b true false
      refine ⟨freed.home, ?_, fun m' _ => congrFun freed.msgs m', ?_⟩
      · intro c ne
        obtain ⟨home, blocks⟩ := freed.others c ne
        exact ⟨home.trans (Function.update_of_ne ne _ _),
          blocks.trans (Function.update_of_ne ne _ _)⟩
      · rw [if_pos ⟨busy, by decide⟩]
        split at load <;> omega
    | keep =>
      have did := freeBuf_discarded (s := s.emit (.called b m .rcvryDiscard)) (b := b) .keep
        fun _ => by decide
      exact ⟨did.home, did.others, did.msgs, did.load⟩
  · rw [if_neg busy]
    exact freeBuf_discarded action fun h => absurd h busy

end

/-- The blocks that `mtlk_txmm_restore`, begun at `s₀`, has not taken out of their queue
after the blocks `l`: those still to come, and those freed by their callback. -/
def account (answer : Fin n → ClbAction) (s₀ : Base n μ σ κ ν) (l : List (Fin n)) :
    Finset (Fin n) :=
  Finset.univ.filter fun b => s₀.Busy b ∧ (b ∉ l ∨ answer b = .free)

theorem mem_account {answer : Fin n → ClbAction} {l : List (Fin n)} :
    b ∈ account answer s₀ l ↔ s₀.Busy b ∧ (b ∉ l ∨ answer b = .free) := by
  simp only [account, Finset.mem_filter, Finset.mem_univ, true_and]

theorem card_account_next (answer : Fin n → ClbAction) (s₀ : Base n μ σ κ ν) {l : List (Fin n)}
    (new : b ∉ l) :
    (account answer s₀ (l ++ [b])).card + (if s₀.Busy b ∧ answer b ≠ .free then 1 else 0) ≤
      (account answer s₀ l).card := by
  have subset : account answer s₀ (l ++ [b]) ⊆ account answer s₀ l := by
    intro c mem
    obtain ⟨busy, kept⟩ := mem_account.1 mem
    refine mem_account.2 ⟨busy, kept.imp_left fun later mem => later ?_⟩
    exact List.mem_append_left _ mem
  split
  · rename_i closed
    refine Finset.card_lt_card ⟨subset, fun back => ?_⟩
    obtain ⟨-, later | freed⟩ := mem_account.1 (back (mem_account.2 ⟨closed.1, .inl new⟩))
    · exact later (List.mem_append_right _ (List.mem_singleton_self b))
    · exact closed.2 freed
  · exact Finset.card_le_card subset

/-- How `mtlk_txmm_restore`, begun at `s₀`, stands after the blocks `l`. -/
structure Left (answer : Fin n → ClbAction) (s₀ s : Base n μ σ κ ν) (l : List (Fin n)) :
    Prop where
  ahead : ∀ b, b ∉ l → s.rings.home b = s₀.rings.home b ∧ s.blocks b = s₀.blocks b
  freed : ∀ b ∈ l, s.rings.home b = some .free
  data : ∀ m b, (s₀.msgs m).data = some b → b ∉ l ∨ ¬(s₀.Busy b ∧ answer b = .free) →
    (s.msgs m).data = some b
  load : (account answer s₀ l).card ≤ s.load

section
variable [DecidableEq μ]

theorem Left.next {answer : Fin n → ClbAction} {now : UInt32} {l : List (Fin n)}
    (h₀ : Sound s₀) (h : Left answer s₀ s l) (new : b ∉ l) :
    Left answer s₀ (s.restoreBlock b (answer b) now) (l ++ [b]) := by
  obtain ⟨home, blocks⟩ := h.ahead b new
  have busy_iff : s.Busy b ↔ s₀.Busy b := by rw [Base.Busy, home, Base.Busy]
  have did : Discarded s (s.restoreBlock b (answer b) now) b (answer b) := by
    refine restoreBlock_discarded ?_ ?_ <;> intro busy <;> rw [blocks]
    · have alive : s₀.rings.home b ≠ some .free := by
        obtain sent | queued := busy_iff.1 busy
        · simp [sent]
        · simp [queued]
      obtain ⟨m, msg, data⟩ := h₀.owned.msg b alive
      exact ⟨m, msg, h.data m b data (.inl new)⟩
    · obtain sent | queued := busy_iff.1 busy
      · exact h₀.owned.clb b _ sent (by decide)
      · exact h₀.owned.clb b _ queued (by decide)
  constructor
  · intro c later
    simp only [List.mem_append, List.mem_singleton, not_or] at later
    obtain ⟨home', blocks'⟩ := did.others c later.2
    obtain ⟨home₀, blocks₀⟩ := h.ahead c later.1
    exact ⟨home'.trans home₀, blocks'.trans blocks₀⟩
  · intro c done
    by_cases e : c = b
    · subst e
      exact did.home
    · obtain done | done := List.mem_append.1 done
      · exact (did.others c e).1.trans (h.freed c done)
      · exact absurd (List.mem_singleton.1 done) e
  · intro m c data kept
    have same : (s.msgs m).data = some c := by
      refine h.data m c data (kept.imp_left fun later mem => later ?_)
      exact List.mem_append_left _ mem
    rw [did.msgs m ?_, same]
    by_cases e : c = b
    · subst e
      rw [busy_iff]
      refine .inr (kept.resolve_left fun later => later ?_)
      exact List.mem_append_right _ (List.mem_singleton_self c)
    · left
      rw [same, Ne, Option.some_inj]
      exact e
  · have load := did.load
    have account := card_account_next answer s₀ new
    have before := h.load
    simp only [busy_iff] at load
    omega

theorem Left.rest {answer : Fin n → ClbAction} {now : UInt32} (h₀ : Sound s₀)
    (l rest : List (Fin n)) (nodup : (l ++ rest).Nodup) (h : Left answer s₀ s l) :
    Left answer s₀ (rest.foldl (fun s b => s.restoreBlock b (answer b) now) s) (l ++ rest) := by
  induction rest generalizing s l with
  | nil =>
    rw [List.append_nil]
    exact h
  | cons b rest ih =>
    have new : b ∉ l := by
      intro mem
      exact (List.nodup_append.1 nodup).2.2 b mem b (List.mem_cons_self ..) rfl
    rw [List.append_cons] at nodup ⊢
    exact ih (l ++ [b]) nodup (h.next h₀ new)

theorem restore_left (h : Sound s) (answer : Fin n → ClbAction) (now : UInt32) :
    Left answer s (s.restore answer now) (List.finRange n) := by
  refine Left.rest h [] (List.finRange n) (List.nodup_finRange n) ⟨?_, ?_, ?_, ?_⟩
  · exact fun b _ => ⟨rfl, rfl⟩
  · exact fun b mem => absurd mem List.not_mem_nil
  · exact fun m b data _ => data
  · rw [h.load_eq]
    apply Finset.card_le_card
    intro b mem
    exact Finset.mem_filter.2 ⟨Finset.mem_univ b, (mem_account.1 mem).1⟩

theorem restore_of_free (free : ∀ b, s.rings.home b = some .free) (answer : Fin n → ClbAction)
    (now : UInt32) : s.restore answer now = s := by
  have same (b : Fin n) : s.restoreBlock b (answer b) now = s := by
    have idle : ¬s.Busy b := by simp [Base.Busy, free b]
    unfold Base.restoreBlock
    rw [if_neg idle]
    exact freeBuf_of_free (free b) true false
  unfold Base.restore
  induction List.finRange n with
  | nil => rfl
  | cons b l ih => rw [List.foldl_cons, same, ih]

end

theorem Sound.restored (h : Sound s) (free : ∀ b, s.rings.home b = some .free) : Restored s := by
  have total (q : Que) : (s.rings.ring q).total = if q = .free then n else 0 := by
    rw [← h.seated.card_home q]
    simp only [free, Option.some_inj]
    split
    · rename_i e
      subst e
      simp
    · rename_i ne
      simp [Ne.symm ne]
  have ends (q : Que) : (s.rings.ring q).fromIdx = (s.rings.ring q).toIdx := by
    have lt := (h.seated.valid q).from_lt
    rw [(h.seated.valid q).to_eq, total q, wrap]
    split <;> split <;> omega
  constructor
  case fault => exact h.fault
  case empty =>
    intro q ne
    exact ⟨ends q, (total q).trans (if_neg ne)⟩
  case full => exact ⟨ends .free, (total .free).trans (if_pos rfl)⟩
  case once =>
    intro b
    refine ⟨s.rings.idx b, h.seated.seat b .free (free b), ?_⟩
    rintro i ⟨holds, rfl⟩
    exact (h.seated.held .free i holds).2.symm
  case data =>
    intro m b data
    exact absurd (free b) (h.not_free_of_data data)

/-- Recovery leaves every block free, every other queue empty and no message attached
exactly when there was nothing to recover from: whatever the callbacks answer, each block
that is not free leaves an entry in its queue or a message attached to it. -/
theorem restore_restores_iff [NeZero n] [DecidableEq μ] [DecidableEq σ]
    {maxPayloadSize : UInt16} {pool : List σ}
    (run : Runs step Op.Careful (Base.init n maxPayloadSize pool) s)
    (answer : Fin n → ClbAction) (now : UInt32) :
    Restored (s.restore answer now) ↔ ∀ b, s.rings.home b = some .free := by
  have sound := run_sound run
  constructor
  · intro restored b
    by_contra alive
    obtain ⟨m, -, data⟩ := sound.owned.msg b alive
    have left := restore_left sound answer now
    by_cases detached : s.Busy b ∧ answer b = .free
    · have entry : 0 < (account answer s (List.finRange n)).card :=
        Finset.card_pos.2 ⟨b, mem_account.2 ⟨detached.1, .inr detached.2⟩⟩
      have load := left.load
      rw [Base.load, (restored.empty .sent (by decide)).2,
        (restored.empty .queued (by decide)).2] at load
      omega
    · exact restored.data m b (left.data m b data (.inr detached))
        (left.freed b (List.mem_finRange b))
  · intro free
    rw [restore_of_free free]
    exact sound.restored free

/-- A message was sent, confirmed and freed by its callback before the recovery. -/
theorem restore_restores_iff_after_confirmation :
    Restored (([.start, .getEmptyData 1 (), .msgSend 1 ⟨5, 10, (), 0⟩ 0, .onCfm 7,
      .callUsrClb ⟨0, some 1, .confirmed⟩ .free 0].foldl step
        (Base.init 2 64 [7] : Base 2 Nat Nat Unit Unit)).restore (fun _ => .free) 0) := by
  refine (restore_restores_iff (Runs.of_allowed ?_) _ _).2 (by decide)
  refine ⟨⟨trivial, trivial, trivial⟩, ⟨trivial, trivial, trivial⟩,
    ⟨⟨⟨0, ?_⟩, ?_⟩, trivial, trivial⟩, ⟨trivial, trivial, trivial⟩, ⟨trivial, trivial, trivial⟩,
    trivial⟩ <;> decide

/-- The callback of a sent message frees it in the recovery: the entry of its block stays in
the queue of the sent ones. -/
theorem restore_leaves_sent_block :
    ∃ s : Base 2 Nat Nat Unit Unit, Runs step Op.Careful (Base.init 2 64 [7]) s ∧
      ¬Restored (s.restore (fun _ => .free) 0) := by
  refine ⟨_, Runs.of_allowed (l := [.start, .getEmptyData 1 (), .msgSend 1 ⟨5, 10, (), 0⟩ 0])
    ?_, ?_⟩
  · refine ⟨⟨trivial, trivial, trivial⟩, ⟨trivial, trivial, trivial⟩,
      ⟨⟨⟨0, ?_⟩, ?_⟩, trivial, trivial⟩, trivial⟩ <;> decide
  · intro restored
    have empty := (restored.empty .sent (by decide)).2
    revert empty
    decide

end Wave300.Txmm
