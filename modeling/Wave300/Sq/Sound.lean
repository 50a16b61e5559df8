import Wave300.Sq.Accounting

/-!
# The send queue under the lock

What each locked section does leaves the counters in agreement with the lists and the blocks:
taking packets out of the lists, sending them, and peers that come and go.
-/

namespace Wave300.Sq.Queue

open Wave300.Lib

variable {σ ν : Type}

/-- The counters agree with the lists and the blocks while `held` is held. -/
structure Sound (s : Queue σ ν) (held : Multiset Token) : Prop where
  balanced : ∀ t, s.balance t = held.count t
  live : ∀ g e, s.extra g = some e → 0 < e.refCnt
  nodup : ∀ ac, (s.peers ac).Nodup
  stray : ∀ p ac, p ∉ s.peers ac → s.buflist p ac = []

/-- The same peers are there, and the same calls are on the way. -/
structure Same (s s' : Queue σ ν) : Prop where
  peers : ∀ ac p, p ∈ s'.peers ac ↔ p ∈ s.peers ac
  calls : s'.calls = s.calls

variable {s s' s'' : Queue σ ν} {held taken given : Multiset Token} {ac : Ac} {g : Nat}
  {pkt : Pkt σ ν}

theorem Same.refl (s : Queue σ ν) : s.Same s := ⟨fun _ _ => Iff.rfl, rfl⟩

theorem Same.trans (h : s.Same s') (h' : s'.Same s'') : s.Same s'' :=
  ⟨fun ac p => (h'.peers ac p).trans (h.peers ac p), h'.calls.trans h.calls⟩

theorem Trades.balanced (h : s.Trades s' taken given)
    (balanced : ∀ t, s.balance t = (taken + held).count t) (t : Token) :
    s'.balance t = (given + held).count t := by
  have trade := h t
  have before := balanced t
  rw [Multiset.count_add] at before ⊢
  push_cast at before ⊢
  omega

/-- An operation that leaves the lists and the blocks as they are. -/
theorem Sound.trade (h : s.Sound (taken + held)) (trades : s.Trades s' taken given)
    (extra : s'.extra = s.extra) (peers : s'.peers = s.peers) (buflist : s'.buflist = s.buflist) :
    s'.Sound (given + held) where
  balanced := trades.balanced h.balanced
  live := by
    rw [extra]
    exact h.live
  nodup := by
    rw [peers]
    exact h.nodup
  stray := by
    rw [peers, buflist]
    exact h.stray

/-! ## The blocks -/

theorem Sound.lt_extras (h : s.Sound held) {e : Extra} (found : s.extra g = some e) :
    g < s.extras := by
  have group := h.balanced (.group g)
  rw [balance, found, Option.isSome_some, Bool.toNat_true] at group
  by_contra ge
  rw [if_neg ge] at group
  omega

theorem Sound.fresh (h : s.Sound held) : s.extra s.extras = none := by
  cases found : s.extra s.extras with
  | none => rfl
  | some e =>
    have lt := h.lt_extras found
    omega

/-- Who holds a reference finds the block. -/
theorem Sound.exists_extra (h : s.Sound ({.ref g} + held)) : ∃ e, s.extra g = some e := by
  cases found : s.extra g with
  | some e => exact ⟨e, rfl⟩
  | none =>
    have refs := h.balanced (.ref g)
    rw [balance, refCnt, found, Multiset.count_add, Multiset.count_singleton_self] at refs
    simp only [Option.map_none, Option.getD_none] at refs
    push_cast at refs
    omega

/-- A block that stays, with another number of references. -/
theorem Sound.setExtra {fewer more : Nat}
    (h : s.Sound (Multiset.replicate fewer (Token.ref g) + held)) {e : Extra}
    (found : s.extra g = some e) {n : Int} (pos : 0 < n) (refs : n + fewer = e.refCnt + more) :
    (s.setExtra g (some { e with refCnt := n })).Sound
      (Multiset.replicate more (Token.ref g) + held) where
  balanced := (trades_setExtra found (h.lt_extras found) (h.live g e found) pos refs).balanced
    h.balanced
  live := by
    intro g' e' found'
    by_cases same : g' = g
    · subst same
      simp only [Queue.setExtra, Function.update_self, Option.some.injEq] at found'
      rw [← found']
      exact pos
    · simp only [Queue.setExtra, Function.update_of_ne same] at found'
      exact h.live g' e' found'
  nodup := h.nodup
  stray := h.stray

theorem Sound.setExtra_none {e : Extra} (h : s.Sound ({.ref g} + held))
    (found : s.extra g = some e) (one : e.refCnt = 1) :
    (s.setExtra g none).Sound ({.size e.ac, .group g} + held) where
  balanced := (trades_setExtra_none found (h.lt_extras found) one).balanced h.balanced
  live := by
    intro g' e' found'
    by_cases same : g' = g
    · subst same
      simp only [Queue.setExtra, Function.update_self, reduceCtorEq] at found'
    · simp only [Queue.setExtra, Function.update_of_ne same] at found'
      exact h.live g' e' found'
  nodup := h.nodup
  stray := h.stray

theorem Sound.extraAttach (h : s.Sound ({.ref g} + held)) :
    (s.extraAttach g).Sound ({.ref g, .ref g} + held) := by
  obtain ⟨e, found⟩ := h.exists_extra
  have pos := h.live g e found
  have held : s.Sound (Multiset.replicate 1 (Token.ref g) + held) := h
  have more : (s.setExtra g (some { e with refCnt := e.refCnt + 1 })).Sound
      (Multiset.replicate 2 (Token.ref g) + _) := held.setExtra found (by omega) (by omega)
  rw [Queue.extraAttach, found]
  exact more

/-- A new group, with its place in `size`. -/
theorem Sound.cloneBegin (h : s.Sound held) (ac : Ac) (front : Bool) :
    ((s.extraCreate ac front).sizeInc ac).Sound ({.ref s.extras} + held) where
  balanced := by
    have create := trades_extraCreate s ac front h.fresh
    have size := (trades_sizeInc (s.extraCreate ac front) ac).frame {.ref s.extras}
    rw [zero_add, add_comm] at size
    have both := create.trans size
    rw [← zero_add ({.size ac} : Multiset Token)] at both
    have whole := both.cancel.frame held
    rw [zero_add] at whole
    intro t
    have trade := whole t
    have before := h.balanced t
    omega
  live := by
    intro g e found
    by_cases same : g = s.extras
    · subst same
      change Function.update s.extra s.extras (some ⟨1, ac, front⟩) s.extras = some e at found
      rw [Function.update_self] at found
      cases found
      exact Int.one_pos
    · change Function.update s.extra s.extras (some ⟨1, ac, front⟩) g = some e at found
      rw [Function.update_of_ne same] at found
      exact h.live g e found
  nodup := h.nodup
  stray := h.stray

/-- Letting go of a reference. The block is freed with the last one. -/
theorem Sound.extraDetach (h : s.Sound ({.ref g} + held)) : ∃ e, s.extra g = some e ∧
    ((s.extraDetach g).2 = true ∧ (s.extraDetach g).1.extra g = none ∧
        (s.extraDetach g).1.Sound ({.size e.ac, .group g} + held) ∨
      (s.extraDetach g).2 = false ∧ (s.extraDetach g).1.Sound held) := by
  obtain ⟨e, found⟩ := h.exists_extra
  have pos := h.live g e found
  refine ⟨e, found, ?_⟩
  rw [Queue.extraDetach, found]
  by_cases last : e.refCnt - 1 = 0
  · left
    simp only [last, ↓reduceIte, true_and]
    exact ⟨Function.update_self .., h.setExtra_none found (by omega)⟩
  · right
    simp only [last, ↓reduceIte, true_and]
    have one : s.Sound (Multiset.replicate 1 (Token.ref g) + held) := h
    have less : (s.setExtra g (some { e with refCnt := e.refCnt - 1 })).Sound
        (Multiset.replicate 0 (Token.ref g) + held) := one.setExtra found (by omega) (by omega)
    rwa [Multiset.replicate_zero, zero_add] at less

theorem Sound.giveBack (h : s.Sound ({.size ac, .group g} + held)) :
    (s.giveBack ac g).Sound held := by
  have back := h.trade (trades_giveBack s ac g) rfl rfl rfl
  rwa [zero_add] at back

theorem Sound.enqueueCloneEnd (h : s.Sound ({.ref g} + held)) :
    (s.enqueueCloneEnd g).Sound held := by
  obtain ⟨e, found, ⟨last, -, sound⟩ | ⟨last, sound⟩⟩ := h.extraDetach
  · simp only [Queue.enqueueCloneEnd, found, last, ↓reduceIte]
    exact sound.giveBack
  · simp only [Queue.enqueueCloneEnd, found, last, Bool.false_eq_true, ↓reduceIte]
    exact sound

theorem Sound.releasePacket (h : s.Sound ({pkt.token ac} + held)) :
    (s.releasePacket ac pkt).Sound held := by
  rw [Pkt.token] at h
  rw [Queue.releasePacket]
  cases found : pkt.rmcast with
  | some g =>
    rw [found] at h
    exact h.enqueueCloneEnd
  | none =>
    rw [found] at h
    have dec := h.trade (trades_sizeDec s ac) rfl rfl rfl
    rwa [zero_add] at dec

/-- The peers, their lists and the calls are as they were. -/
structure Frame (s s' : Queue σ ν) : Prop where
  peers : s'.peers = s.peers
  calls : s'.calls = s.calls
  buflist : s'.buflist = s.buflist

theorem Frame.same (h : s.Frame s') : s.Same s' where
  peers := by simp [h.peers]
  calls := h.calls

theorem Frame.queued (h : s.Frame s') : s'.queued = s.queued := by
  funext ac
  rw [Queue.queued, Queue.queued, h.peers, h.buflist]

theorem extraAttach_frame (s : Queue σ ν) (g : Nat) : s.Frame (s.extraAttach g) := by
  rw [Queue.extraAttach]
  split <;> exact ⟨rfl, rfl, rfl⟩

theorem extraDetach_frame (s : Queue σ ν) (g : Nat) : s.Frame (s.extraDetach g).1 := by
  rw [Queue.extraDetach]
  cases s.extra g with
  | none => exact ⟨rfl, rfl, rfl⟩
  | some e =>
    simp only
    split <;> exact ⟨rfl, rfl, rfl⟩

theorem releasePacket_frame (s : Queue σ ν) (ac : Ac) (pkt : Pkt σ ν) :
    s.Frame (s.releasePacket ac pkt) := by
  rw [Queue.releasePacket]
  cases pkt.rmcast with
  | none => exact ⟨rfl, rfl, rfl⟩
  | some g =>
    have frame := extraDetach_frame s g
    simp only [Queue.enqueueCloneEnd]
    cases s.extra g with
    | none => exact ⟨rfl, rfl, rfl⟩
    | some e =>
      simp only
      split
      · exact ⟨frame.peers, frame.calls, frame.buflist⟩
      · exact frame

theorem cancel_frame (s : Queue σ ν) (ac : Ac) (pkt : Pkt σ ν) :
    s.Frame ((s.releasePacket ac pkt).free pkt) := by
  obtain ⟨peers, calls, buflist⟩ := releasePacket_frame s ac pkt
  exact ⟨peers, calls, buflist⟩

theorem Sound.free (h : s.Sound ({.packet pkt.id} + held)) : (s.free pkt).Sound held := by
  have freed := h.trade (trades_free s pkt) rfl rfl rfl
  rwa [zero_add] at freed

/-! ## The lists -/

/-- The lists are put together in another way. -/
theorem Sound.relist (h : s.Sound held) {peers : Ac → List (Ctx σ ν)}
    {buflist : Ctx σ ν → Ac → List (Pkt σ ν)} (tx : Ctx σ ν → PeerTx)
    (counts : ∀ ac P, ((peers ac).flatMap (buflist · ac)).countP P = (s.queued ac).countP P)
    (nodup : ∀ ac, (peers ac).Nodup) (stray : ∀ p ac, p ∉ peers ac → buflist p ac = []) :
    { s with peers := peers, buflist := buflist, tx := tx }.Sound held where
  balanced := by
    have total : ∀ P, { s with peers := peers, buflist := buflist, tx := tx }.inLists P =
        s.inLists P := by
      intro P
      exact Finset.sum_congr rfl fun ac _ => counts ac P
    intro t
    rw [← h.balanced t]
    cases t with
    | size ac =>
      have plain : { s with peers := peers, buflist := buflist, tx := tx }.plain ac =
        s.plain ac := counts ac _
      rw [balance, balance, plain]
      rfl
    | ref =>
      rw [balance, balance, total]
      rfl
    | packet => rw [balance, balance, total]
    | group | pending => rfl
  live := h.live
  nodup := nodup
  stray := stray

theorem Sound.shift (h : s.Sound held) (ac : Ac) :
    (s.shift ac).Sound held ∧ s.Same (s.shift ac) := by
  have perm : ∀ ac', ((s.shift ac).peers ac').Perm (s.peers ac') := by
    intro ac'
    by_cases same : ac' = ac
    · subst same
      simpa [Queue.shift] using List.rotate_perm (s.peers ac') 1
    · simp [Queue.shift, same]
  refine ⟨h.relist s.tx ?_ ?_ ?_, fun ac' p => (perm ac').mem_iff, rfl⟩
  · intro ac' P
    exact ((perm ac').flatMap_right _).countP_eq P
  · intro ac'
    exact (perm ac').nodup_iff.2 (h.nodup ac')
  · intro p ac' notMem
    exact h.stray p ac' fun mem => notMem ((perm ac').mem_iff.2 mem)

section Lists
variable [DecidableEq σ] [DecidableEq ν] {p : Ctx σ ν} {l : List (Pkt σ ν)}

theorem stray_setBuflist (h : s.Sound held) (mem : p ∈ s.peers ac) (l : List (Pkt σ ν))
    (q : Ctx σ ν) (ac' : Ac) (notMem : q ∉ s.peers ac') :
    (s.setBuflist p ac l).buflist q ac' = [] := by
  have old := h.stray q ac' notMem
  by_cases same : q = p ∧ ac' = ac
  · obtain ⟨rfl, rfl⟩ := same
    exact absurd mem notMem
  · by_cases eq : q = p
    · subst eq
      have ne : ac' ≠ ac := fun e => same ⟨rfl, e⟩
      simpa [Queue.setBuflist, ne] using old
    · simpa [Queue.setBuflist, eq] using old

theorem Sound.put (h : s.Sound ({pkt.token ac, .packet pkt.id} + held)) (mem : p ∈ s.peers ac)
    (put : l.Perm (pkt :: s.buflist p ac)) : (s.setBuflist p ac l).Sound held where
  balanced := by
    have balanced := (trades_put (h.nodup ac) mem put).balanced h.balanced
    rwa [zero_add] at balanced
  live := h.live
  nodup := h.nodup
  stray := stray_setBuflist h mem l

theorem Sound.take (h : s.Sound held) (mem : p ∈ s.peers ac)
    (take : (s.buflist p ac).Perm (pkt :: l)) :
    (s.setBuflist p ac l).Sound ({pkt.token ac, .packet pkt.id} + held) where
  balanced := by
    rw [← zero_add held] at h
    exact (trades_take (h.nodup ac) mem take).balanced h.balanced
  live := h.live
  nodup := h.nodup
  stray := stray_setBuflist h mem l

/-- A packet is taken from a list and released. The packet itself is left to be placed. -/
theorem Sound.takeRelease (h : s.Sound held) (mem : p ∈ s.peers ac)
    (take : (s.buflist p ac).Perm (pkt :: l)) :
    ((s.setBuflist p ac l).releasePacket ac pkt).Sound ({.packet pkt.id} + held) := by
  have popped := h.take mem take
  rw [Multiset.insert_eq_cons, ← Multiset.singleton_add, add_assoc] at popped
  exact popped.releasePacket

theorem Sound.handOver (h : s.Sound ({.packet pkt.id} + held)) (p : Ctx σ ν) (ac : Ac) :
    (s.handOver p ac pkt).Sound held := by
  have given := h.trade (trades_handOver s p ac pkt) rfl rfl rfl
  rwa [zero_add] at given

/-- One packet, taken out and freed. -/
theorem Sound.cancel (h : s.Sound held) (mem : p ∈ s.peers ac) (queued : pkt ∈ s.buflist p ac) :
    (((s.setBuflist p ac ((s.buflist p ac).erase pkt)).releasePacket ac pkt).free pkt).Sound
      held :=
  (h.takeRelease mem (List.perm_cons_erase queued)).free

theorem Sound.cancelList (which : Pkt σ ν → Bool) (h : s.Sound held) (mem : p ∈ s.peers ac)
    (sub : l.Sublist (s.buflist p ac)) :
    (s.cancelList which p ac l).Sound held ∧ s.Same (s.cancelList which p ac l) := by
  induction l generalizing s with
  | nil => exact ⟨h, .refl s⟩
  | cons pkt l ih =>
    rw [Queue.cancelList]
    split
    case isTrue =>
      have frame := cancel_frame (s.setBuflist p ac ((s.buflist p ac).erase pkt)) ac pkt
      have same : s.Same _ := ⟨frame.same.peers, frame.same.calls⟩
      have queued : pkt ∈ s.buflist p ac := sub.subset List.mem_cons_self
      have rest : l.Sublist ((s.buflist p ac).erase pkt) := by
        have erased := sub.erase pkt
        rwa [List.erase_cons_head] at erased
      obtain ⟨sound, later⟩ := ih (h.cancel mem queued) ((same.peers ac p).2 mem)
        (by rw [frame.buflist]; simpa [Queue.setBuflist] using rest)
      exact ⟨sound, same.trans later⟩
    case isFalse => exact ih h mem ((List.sublist_cons_self pkt l).trans sub)

theorem Sound.cancelAcs {which : Pkt σ ν → Bool} {acs : List Ac} (h : s.Sound held)
    (listed : s.Listed p) :
    (s.cancelAcs which p acs).Sound held ∧ s.Same (s.cancelAcs which p acs) := by
  induction acs generalizing s with
  | nil => exact ⟨h, .refl s⟩
  | cons ac acs ih =>
    obtain ⟨sound, same⟩ := h.cancelList which (listed ac) (List.Sublist.refl _)
    obtain ⟨sound, later⟩ := ih sound fun ac => (same.peers ac p).2 (listed ac)
    exact ⟨sound, same.trans later⟩

/-! ### Peers come and go -/

theorem Sound.peerCtxInit (h : s.Sound held) (new : ∀ ac, p ∉ s.peers ac) (limit : UInt32) :
    (s.peerCtxInit p limit).Sound held := by
  have others : ∀ q ac, q ≠ p →
      Function.update s.buflist p (fun _ => []) q ac = s.buflist q ac := by
    intro q ac ne
    rw [Function.update_of_ne ne]
  apply h.relist
  · intro ac P
    have here : Function.update s.buflist p (fun _ => []) p ac = [] := by
      rw [Function.update_self]
    rw [List.flatMap_cons, here, List.nil_append]
    congr 1
    apply List.flatMap_congr
    intro q mem
    apply others
    rintro rfl
    exact new ac mem
  · intro ac
    exact List.nodup_cons.2 ⟨new ac, h.nodup ac⟩
  · intro q ac notMem
    obtain ⟨ne, notMem⟩ := not_or.1 (mt List.mem_cons.2 notMem)
    rw [others q ac ne]
    exact h.stray q ac notMem

/-- A peer whose list is empty leaves. -/
theorem Sound.unlist (h : s.Sound held) (empty : s.buflist p ac = []) :
    (s.unlist p ac).Sound held := by
  apply h.relist s.tx
  · intro ac' P
    by_cases same : ac' = ac
    · subst same
      rw [Function.update_self]
      by_cases mem : p ∈ s.peers ac'
      · have gone := ((List.perm_cons_erase mem).flatMap_right (s.buflist · ac')).countP_eq P
        rw [List.flatMap_cons, empty, List.nil_append] at gone
        exact gone.symm
      · rw [List.erase_of_not_mem mem]
        rfl
    · rw [Function.update_of_ne same]
      rfl
  · intro ac'
    by_cases same : ac' = ac
    · subst same
      rw [Function.update_self]
      exact (h.nodup ac').erase p
    · rw [Function.update_of_ne same]
      exact h.nodup ac'
  · intro q ac' notMem
    by_cases same : ac' = ac
    · subst same
      rw [Function.update_self] at notMem
      by_cases eq : q = p
      · subst eq
        exact empty
      · exact h.stray q ac' fun mem => notMem ((List.mem_erase_of_ne eq).2 mem)
    · rw [Function.update_of_ne same] at notMem
      exact h.stray q ac' notMem

theorem extraDetach_unlist (s : Queue σ ν) (g : Nat) (p : Ctx σ ν) (ac : Ac) :
    (s.unlist p ac).extraDetach g = ((s.extraDetach g).1.unlist p ac, (s.extraDetach g).2) := by
  have same : (s.unlist p ac).extra g = s.extra g := rfl
  rw [Queue.extraDetach, Queue.extraDetach, same]
  cases s.extra g with
  | none => rfl
  | some e =>
    simp only
    split <;> rfl

theorem releasePacket_unlist (s : Queue σ ν) (pkt : Pkt σ ν) (p : Ctx σ ν) (ac ac' : Ac) :
    (s.unlist p ac).releasePacket ac' pkt = (s.releasePacket ac' pkt).unlist p ac := by
  rw [Queue.releasePacket, Queue.releasePacket]
  cases pkt.rmcast with
  | none => rfl
  | some g =>
    have same : (s.unlist p ac).extra g = s.extra g := rfl
    simp only [Queue.enqueueCloneEnd, extraDetach_unlist, same]
    cases s.extra g with
    | none => rfl
    | some e =>
      simp only
      split <;> rfl

/-- Whether the peer leaves before or after its list is emptied makes no difference. -/
theorem cancelList_unlist (which : Pkt σ ν → Bool) (s : Queue σ ν) (p : Ctx σ ν) (ac : Ac)
    (l : List (Pkt σ ν)) :
    (s.unlist p ac).cancelList which p ac l = (s.cancelList which p ac l).unlist p ac := by
  induction l generalizing s with
  | nil => rfl
  | cons pkt l ih =>
    rw [Queue.cancelList, Queue.cancelList]
    split
    case isTrue =>
      rw [← ih]
      have first :=
        releasePacket_unlist (s.setBuflist p ac ((s.buflist p ac).erase pkt)) pkt p ac ac
      exact congrArg (fun s => (Queue.free s pkt).cancelList which p ac l) first
    case isFalse => exact ih s

theorem cancelList_empties (l : List (Pkt σ ν)) (eq : s.buflist p ac = l) :
    (s.cancelList (fun _ => true) p ac l).buflist p ac = [] := by
  induction l generalizing s with
  | nil => exact eq
  | cons pkt l ih =>
    rw [Queue.cancelList, if_pos rfl]
    apply ih
    have frame := cancel_frame (s.setBuflist p ac ((s.buflist p ac).erase pkt)) ac pkt
    rw [frame.buflist, eq, List.erase_cons_head]
    simp [Queue.setBuflist]

theorem Sound.cleanupList (h : s.Sound held) (mem : p ∈ s.peers ac) :
    (Queue.cleanupList p s ac).Sound held ∧
      (Queue.cleanupList p s ac).calls = s.calls ∧
      ∀ ac' q, (q ≠ p ∨ ac' ≠ ac) →
        (q ∈ (Queue.cleanupList p s ac).peers ac' ↔ q ∈ s.peers ac') := by
  obtain ⟨sound, same⟩ := h.cancelList (fun _ => true) mem (List.Sublist.refl _)
  rw [Queue.cleanupList, cancelList_unlist]
  refine ⟨sound.unlist (cancelList_empties _ rfl), same.calls, ?_⟩
  intro ac' q other
  rw [← same.peers ac' q]
  by_cases eq : ac' = ac
  · subst eq
    have ne : q ≠ p := other.resolve_right fun ne => ne rfl
    simp only [Queue.unlist, Function.update_self]
    exact List.mem_erase_of_ne ne
  · simp only [Queue.unlist, Function.update_of_ne eq]

theorem Sound.cleanupLists {acs : List Ac} (h : s.Sound held) (nodup : acs.Nodup)
    (listed : ∀ ac ∈ acs, p ∈ s.peers ac) :
    (acs.foldl (Queue.cleanupList p) s).Sound held ∧
      (acs.foldl (Queue.cleanupList p) s).calls = s.calls ∧
      ∀ ac q, q ≠ p → (q ∈ (acs.foldl (Queue.cleanupList p) s).peers ac ↔ q ∈ s.peers ac) := by
  induction acs generalizing s with
  | nil => exact ⟨h, rfl, fun _ _ _ => Iff.rfl⟩
  | cons ac acs ih =>
    obtain ⟨notMem, nodup⟩ := List.nodup_cons.1 nodup
    obtain ⟨sound, calls, peers⟩ := h.cleanupList (listed ac List.mem_cons_self)
    have later : ∀ ac' ∈ acs, p ∈ (Queue.cleanupList p s ac).peers ac' := by
      intro ac' mem
      have ne : ac' ≠ ac := by
        rintro rfl
        exact notMem mem
      exact (peers ac' p (.inr ne)).2 (listed ac' (List.mem_cons_of_mem ac mem))
    obtain ⟨sound, calls', peers'⟩ := ih sound nodup later
    refine ⟨sound, calls'.trans calls, ?_⟩
    intro ac' q ne
    exact (peers' ac' q ne).trans (peers ac' q (.inl ne))

/-! ### Sending -/

/-- What `process_packets_by_ac` hears about a packet: the flag is looked at first. -/
def answer (s : Queue σ ν) (hw : Nat → Err) (pkt : Pkt σ ν) : Err :=
  if s.hwTxProhibited then .prohib else hw pkt.id

/-- The first packet has left its list, and its place is given back. -/
def takeFirst (s : Queue σ ν) (p : Ctx σ ν) (ac : Ac) (pkt : Pkt σ ν) (rest : List (Pkt σ ν)) :
    Queue σ ν :=
  (s.setBuflist p ac rest).releasePacket ac pkt

theorem takeFirst_same (s : Queue σ ν) (p : Ctx σ ν) (ac : Ac) (pkt : Pkt σ ν)
    (rest : List (Pkt σ ν)) : s.Same (s.takeFirst p ac pkt rest) :=
  have same := (releasePacket_frame (s.setBuflist p ac rest) ac pkt).same
  ⟨same.peers, same.calls⟩

theorem takeFirst_buflist (s : Queue σ ν) (p : Ctx σ ν) (ac : Ac) (pkt : Pkt σ ν)
    (rest : List (Pkt σ ν)) :
    (s.takeFirst p ac pkt rest).buflist = (s.setBuflist p ac rest).buflist :=
  (releasePacket_frame (s.setBuflist p ac rest) ac pkt).buflist

/-- Everything that can happen to a peer in its turn. -/
theorem visit_cases (s : Queue σ ν) (hw : Nat → Err) (ac : Ac) (p : Ctx σ ν) :
    s.visit hw ac p = (s, .skipped) ∧ (s.buflist p ac = [] ∨ (s.tx p).overLimit ac) ∨
    ∃ pkt rest, s.buflist p ac = pkt :: rest ∧ (s.tx p).overLimit ac = false ∧
      (s.visit hw ac p = (s, .stop .prohib) ∧
          (s.answer hw pkt = .prohib ∨ s.answer hw pkt = .noResources) ∨
        s.visit hw ac p = ((s.takeFirst p ac pkt rest).handOver p ac pkt, .sent) ∧
          s.answer hw pkt = .ok ∨
        s.visit hw ac p = ((s.takeFirst p ac pkt rest).free pkt, .sent) ∧
          s.answer hw pkt = .pktDropped ∨
        s.visit hw ac p = ((s.takeFirst p ac pkt rest).free pkt, .stop .unknown) ∧
          (s.answer hw pkt = .noMem ∨ s.answer hw pkt = .unknown)) := by
  rw [Queue.visit]
  cases list : s.buflist p ac with
  | nil => exact .inl ⟨rfl, .inl rfl⟩
  | cons pkt rest =>
    have back : (s.setBuflist p ac rest).setBuflist p ac (pkt :: rest) = s := by
      rw [← list]
      simp [setBuflist]
    simp only
    split
    case isTrue full => exact .inl ⟨rfl, .inr full⟩
    case isFalse free =>
      refine .inr ⟨pkt, rest, rfl, Bool.eq_false_iff.2 free, ?_⟩
      have said : (if s.hwTxProhibited then Err.prohib else hw pkt.id) = s.answer hw pkt := rfl
      rw [said]
      cases s.answer hw pkt with
      | ok => exact .inr (.inl ⟨rfl, rfl⟩)
      | prohib =>
        simp only [back]
        exact .inl ⟨trivial, .inl trivial⟩
      | noResources =>
        simp only [back]
        exact .inl ⟨trivial, .inr trivial⟩
      | pktDropped => exact .inr (.inr (.inl ⟨rfl, rfl⟩))
      | noMem => exact .inr (.inr (.inr ⟨rfl, .inl rfl⟩))
      | unknown => exact .inr (.inr (.inr ⟨rfl, .inr rfl⟩))

theorem Sound.visit (h : s.Sound held) (mem : p ∈ s.peers ac) (hw : Nat → Err) :
    (s.visit hw ac p).1.Sound held ∧ s.Same (s.visit hw ac p).1 := by
  rcases s.visit_cases hw ac p with ⟨skipped, -⟩ | ⟨pkt, rest, list, -, outcome⟩
  · rw [skipped]
    exact ⟨h, .refl s⟩
  · have same := s.takeFirst_same p ac pkt rest
    have released : (s.takeFirst p ac pkt rest).Sound ({.packet pkt.id} + held) := by
      apply h.takeRelease mem
      rw [list]
    rcases outcome with ⟨stopped, -⟩ | ⟨sent, -⟩ | ⟨dropped, -⟩ | ⟨failed, -⟩
    · rw [stopped]
      exact ⟨h, .refl s⟩
    · rw [sent]
      exact ⟨released.handOver p ac, same.peers, same.calls⟩
    · rw [dropped]
      exact ⟨released.free, same.peers, same.calls⟩
    · rw [failed]
      exact ⟨released.free, same.peers, same.calls⟩

theorem Sound.round {ps : List (Ctx σ ν)} (h : s.Sound held) (mem : ∀ p ∈ ps, p ∈ s.peers ac)
    (hw : Nat → Err) (n : Nat) :
    (s.round hw ac ps n).1.Sound held ∧ s.Same (s.round hw ac ps n).1 := by
  induction ps generalizing s n with
  | nil => exact ⟨h, .refl s⟩
  | cons p ps ih =>
    obtain ⟨sound, same⟩ := h.visit (mem p List.mem_cons_self) hw
    have next := fun n => ih sound
      (fun q hq => (same.peers ac q).2 (mem q (List.mem_cons_of_mem p hq))) n
    rw [Queue.round]
    rcases visit : s.visit hw ac p with ⟨s', outcome⟩
    rw [visit] at sound same next
    cases outcome with
    | skipped => exact ⟨(next n).1, same.trans (next n).2⟩
    | sent => exact ⟨(next (n + 1)).1, same.trans (next (n + 1)).2⟩
    | stop res => exact ⟨sound, same⟩

theorem Sound.rounds (h : s.Sound held) (hw : Nat → Err) (ac : Ac) (fuel : Nat) :
    (s.rounds hw ac fuel).1.Sound held ∧ s.Same (s.rounds hw ac fuel).1 := by
  induction fuel generalizing s with
  | zero => exact ⟨h, .refl s⟩
  | succ fuel ih =>
    have all : ∀ p ∈ s.peers ac, p ∈ s.peers ac := fun _ mem => mem
    obtain ⟨sound, same⟩ := h.round all hw 0
    rw [Queue.rounds]
    rcases round : s.round hw ac (s.peers ac) 0 with ⟨s', n, res⟩
    rw [round] at sound same
    split
    case h_1 s₁ eq =>
      obtain ⟨rfl, -⟩ := Prod.mk.inj eq
      obtain ⟨sound, later⟩ := sound.shift ac
      exact ⟨sound, same.trans later⟩
    case h_2 s₁ n eq =>
      obtain ⟨rfl, -⟩ := Prod.mk.inj eq
      exact ⟨(ih sound).1, same.trans (ih sound).2⟩
    case h_3 s₁ n res _ _ eq =>
      obtain ⟨rfl, -⟩ := Prod.mk.inj eq
      exact ⟨sound, same⟩

theorem Sound.processPackets {acs : List Ac} (h : s.Sound held) (hw : Nat → Err) :
    (s.processPackets hw acs).Sound held ∧ s.Same (s.processPackets hw acs) := by
  induction acs generalizing s with
  | nil => exact ⟨h, .refl s⟩
  | cons ac acs ih =>
    obtain ⟨sound, same⟩ := h.rounds hw ac ((s.queued ac).length + 1)
    rw [Queue.processPackets, processPacketsByAc]
    rcases result : s.rounds hw ac ((s.queued ac).length + 1) with ⟨s', res⟩
    rw [result] at sound same
    cases res with
    | ok => exact ⟨(ih sound).1, same.trans (ih sound).2⟩
    | noMem | noResources | prohib | pktDropped | unknown => exact ⟨sound, same⟩

end Lists

end Wave300.Sq.Queue
