import Wave300.Sq.Sound

/-!
# Conservation in the send queue

In every run the sizes count the packets in the lists and the groups of clones, every group gives
its place back once, and every packet that was accepted is in one list, or with the hardware, or
freed.
-/

namespace Wave300.Sq

open Wave300.Lib

variable {σ ν : Type}

/-- A call is well formed: its packet is of the right kind, and its peer is there. -/
def Call.Proper (s : Queue σ ν) : Call σ ν → Prop
  | .enqueue nic pkt _ _ => pkt.rmcast = none ∧ s.Listed (peerCtx nic pkt)
  | .enqueueClone nic _ g clone => clone.rmcast = some g ∧ s.Listed (peerCtx nic clone)
  | _ => True

theorem Call.Proper.mono {s s' : Queue σ ν} {c : Call σ ν} (h : c.Proper s)
    (listed : ∀ p, c.target = some p → s.Listed p → s'.Listed p) : c.Proper s' := by
  cases c with
  | enqueue => exact ⟨h.1, listed _ rfl h.2⟩
  | enqueueClone => exact ⟨h.1, listed _ rfl h.2⟩
  | refused | cloning | cloneRefused | uncount => trivial

/-- How many places in the size of a category the call holds. -/
def Call.counts (ac : Ac) : Call σ ν → Nat
  | .enqueue _ _ ac' _ | .refused ac' | .uncount ac' _ => if ac' = ac then 1 else 0
  | .cloning .. | .enqueueClone .. | .cloneRefused .. => 0

/-- How many references to a block the call holds. -/
def Call.holds (g : Nat) : Call σ ν → Nat
  | .cloning _ _ g' => if g' = g then 1 else 0
  | .enqueueClone _ _ g' _ | .cloneRefused _ _ g' => if g' = g then 2 else 0
  | .enqueue .. | .refused .. | .uncount .. => 0

/-- The call waits for the next clone: no function of the queue is running in it. -/
def Call.Waits : Call σ ν → Prop
  | .cloning .. => True
  | _ => False

namespace Queue

/-- What holds while a call that holds `held` is at work, and the other calls wait. Between the
steps no call is at work. -/
structure Steady (s : Queue σ ν) (held : Multiset Token) : Prop where
  sound : s.Sound (held + s.calls.bind Call.tokens)
  proper : ∀ c ∈ s.calls, c.Proper s

variable {s s' : Queue σ ν} {held taken given : Multiset Token} {ac : Ac} {g : Nat}
  {c : Call σ ν} {pkt : Pkt σ ν}

theorem Steady.same (h : s.Steady taken) (sound : s'.Sound (given + s.calls.bind Call.tokens))
    (same : s.Same s') : s'.Steady given where
  sound := by
    rw [same.calls]
    exact sound
  proper := by
    intro c mem
    rw [same.calls] at mem
    exact (h.proper c mem).mono fun p _ listed ac => (same.peers ac p).2 (listed ac)

/-- A step that does not touch the lists and the blocks. -/
theorem Steady.trade (h : s.Steady taken) (trades : s.Trades s' taken given)
    (extra : s'.extra = s.extra) (frame : s.Frame s') : s'.Steady given :=
  h.same (h.sound.trade trades extra frame.peers frame.buflist) frame.same

/-- The call comes to its next step. -/
theorem Steady.begin (h : s.Steady c.tokens) (proper : c.Proper s) : (s.begin c).Steady 0 where
  sound := by
    have held : 0 + (s.begin c).calls.bind Call.tokens =
        c.tokens + s.calls.bind Call.tokens := by
      rw [zero_add]
      exact Multiset.cons_bind ..
    rw [held]
    exact ⟨h.sound.balanced, h.sound.live, h.sound.nodup, h.sound.stray⟩
  proper := by
    intro c' mem
    obtain rfl | mem := Multiset.mem_cons.1 mem
    · exact proper.mono fun _ _ listed => listed
    · exact (h.proper c' mem).mono fun _ _ listed => listed

/-- A packet that was refused is not the queue's, and the call keeps the rest. -/
theorem Steady.leaveOut (h : s.Steady (.pending pkt.id ::ₘ held)) :
    (s.leaveOut pkt).Steady held := by
  have trades := (trades_leaveOut s pkt).frame held
  rw [zero_add, Multiset.singleton_add] at trades
  exact h.trade trades rfl ⟨rfl, rfl, rfl⟩

theorem Steady.extraDetach (h : s.Steady ({.ref g} + held)) : ∃ e, s.extra g = some e ∧
    ((s.extraDetach g).2 = true ∧ (s.extraDetach g).1.extra g = none ∧
        (s.extraDetach g).1.Steady ({.size e.ac, .group g} + held) ∨
      (s.extraDetach g).2 = false ∧ (s.extraDetach g).1.Steady held) := by
  have same := (extraDetach_frame s g).same
  have sound := h.sound
  rw [add_assoc] at sound
  obtain ⟨e, found, ⟨last, gone, sound⟩ | ⟨last, sound⟩⟩ := sound.extraDetach
  · refine ⟨e, found, .inl ⟨last, gone, h.same ?_ same⟩⟩
    rwa [add_assoc]
  · exact ⟨e, found, .inr ⟨last, h.same sound same⟩⟩

/-- The creator of a group holds a reference, so a clone never has the last one. -/
theorem Steady.extraDetach_clone (h : s.Steady ({.ref g, .ref g} + held)) :
    (s.extraDetach g).1.Steady ({.ref g} + held) := by
  rw [Multiset.insert_eq_cons, ← Multiset.singleton_add, add_assoc] at h
  obtain ⟨e, -, ⟨-, gone, steady⟩ | ⟨-, steady⟩⟩ := h.extraDetach
  · have sound := steady.sound
    rw [add_left_comm, add_assoc] at sound
    obtain ⟨e', found⟩ := sound.exists_extra
    rw [gone] at found
    cases found
  · exact steady

theorem Steady.allocPkt (h : s.Steady held) : s.allocPkt.Steady ({.pending s.pkts} + held) := by
  have trades := (trades_allocPkt s).frame held
  rw [zero_add] at trades
  exact h.trade trades rfl ⟨rfl, rfl, rfl⟩

theorem Steady.sizeInc (h : s.Steady held) (ac : Ac) :
    (s.sizeInc ac).Steady ({.size ac} + held) := by
  have trades := (trades_sizeInc s ac).frame held
  rw [zero_add] at trades
  exact h.trade trades rfl ⟨rfl, rfl, rfl⟩

theorem Steady.extraAttach (h : s.Steady ({.ref g} + held)) :
    (s.extraAttach g).Steady ({.ref g, .ref g} + held) := by
  have sound := h.sound
  rw [add_assoc] at sound
  refine h.same ?_ (extraAttach_frame s g).same
  rw [add_assoc]
  exact sound.extraAttach

theorem init_steady (globalQueueLimit peerQueueLimit : Ac → Nat) :
    (init globalQueueLimit peerQueueLimit : Queue σ ν).Steady 0 where
  sound := {
    balanced := by
      intro t
      cases t <;> simp [balance, init, plain, liveGroups, queued, contents, refCnt, inLists]
    live := nofun
    nodup := fun _ => List.nodup_nil
    stray := fun _ _ _ => rfl }
  proper := by
    intro c mem
    cases Multiset.notMem_zero c mem

section Calls
variable [DecidableEq σ] [DecidableEq ν]

theorem Steady.finish (h : s.Steady 0) (mem : c ∈ s.calls) : (s.finish c).Steady c.tokens where
  sound := by
    have held : 0 + s.calls.bind Call.tokens =
        c.tokens + (s.finish c).calls.bind Call.tokens := by
      rw [← Multiset.cons_bind, zero_add]
      exact congrArg (Multiset.bind · Call.tokens) (Multiset.cons_erase mem).symm
    rw [← held]
    exact ⟨h.sound.balanced, h.sound.live, h.sound.nodup, h.sound.stray⟩
  proper := by
    intro c' mem'
    exact (h.proper c' (Multiset.mem_of_mem_erase mem')).mono fun _ _ listed => listed

/-- What `mtlk_sq_enqueue_pkt` does with a packet: it is in the list, or nothing changed. -/
theorem enqueuePkt_cases {p : Ctx σ ν} (front : Bool)
    (h : s.Sound ({pkt.token ac, .pending pkt.id} + held)) (mem : p ∈ s.peers ac) :
    (∃ l, s.enqueuePkt p pkt ac front = ((s.accept pkt).setBuflist p ac l, .ok) ∧
      ((s.accept pkt).setBuflist p ac l).Sound held) ∨
    s.enqueuePkt p pkt ac front = (s, .noResources) := by
  rw [Queue.enqueuePkt]
  split
  case isTrue => exact .inr rfl
  case isFalse =>
    left
    refine ⟨_, rfl, ?_⟩
    have split : ({pkt.token ac, .pending pkt.id} : Multiset Token) + held =
        {.pending pkt.id} + ({pkt.token ac} + held) := by
      rw [Multiset.insert_eq_cons, ← Multiset.singleton_add, add_assoc, add_left_comm]
    rw [split] at h
    have accepted : (s.accept pkt).Sound ({.packet pkt.id} + ({pkt.token ac} + held)) :=
      h.trade (trades_accept s pkt) rfl rfl rfl
    have joined : ({.packet pkt.id} : Multiset Token) + ({pkt.token ac} + held) =
        {pkt.token ac, .packet pkt.id} + held := by
      rw [Multiset.insert_eq_cons, ← Multiset.singleton_add, add_assoc, add_left_comm]
    rw [joined] at accepted
    apply accepted.put mem
    cases front with
    | true => exact List.Perm.refl _
    | false => exact List.perm_append_singleton ..

/-- Putting a packet in the list of a peer that is there. -/
theorem Steady.enqueuePkt {p : Ctx σ ν} (h : s.Steady ({pkt.token ac, .pending pkt.id} + held))
    (listed : s.Listed p) (front : Bool) :
    (∃ s', s.enqueuePkt p pkt ac front = (s', .ok) ∧ s'.Steady held ∧ s.Same s') ∨
      s.enqueuePkt p pkt ac front = (s, .noResources) := by
  have sound := h.sound
  rw [add_assoc] at sound
  obtain ⟨l, result, sound⟩ | refused := enqueuePkt_cases front sound (listed ac)
  · have same : s.Same ((s.accept pkt).setBuflist p ac l) := ⟨fun _ _ => Iff.rfl, rfl⟩
    exact .inl ⟨_, result, h.same sound same, same⟩
  · exact .inr refused

theorem Steady.resume_enqueue {nic : ν} {front : Bool}
    (h : s.Steady (Call.enqueue nic pkt ac front).tokens) (plain : pkt.rmcast = none)
    (listed : s.Listed (peerCtx nic pkt)) :
    (s.resume (.enqueue nic pkt ac front)).Steady 0 := by
  have token : pkt.token ac = .size ac := by rw [Pkt.token, plain]
  have held : s.Steady ({pkt.token ac, .pending pkt.id} + 0) := by
    rw [token, add_zero]
    exact h
  rw [Queue.resume]
  obtain ⟨s', result, steady, -⟩ | refused := held.enqueuePkt listed front
  · simp only [result]
    exact steady
  · simp only [refused]
    have out : (s.leaveOut pkt).Steady {.size ac} := by
      apply Steady.leaveOut
      rw [Call.tokens, Multiset.pair_comm] at h
      exact h
    exact Steady.begin (c := .refused ac) out trivial

theorem Steady.resume_enqueueClone {nic : ν} {nbuf clone : Pkt σ ν}
    (h : s.Steady (Call.enqueueClone nic nbuf g clone).tokens) (rmcast : clone.rmcast = some g)
    (listed : s.Listed (peerCtx nic clone)) :
    (s.resume (.enqueueClone nic nbuf g clone)).Steady 0 := by
  have token : ∀ ac, clone.token ac = .ref g := by
    intro ac
    rw [Pkt.token, rmcast]
  have refs : (Call.enqueueClone nic nbuf g clone).tokens =
      {.ref g} + ({.ref g} + {.pending clone.id}) := rfl
  obtain ⟨e, found⟩ : ∃ e, s.extra g = some e := by
    have sound := h.sound
    rw [refs, add_assoc] at sound
    exact sound.exists_extra
  have held : s.Steady ({clone.token e.ac, .pending clone.id} + {.ref g}) := by
    rw [token, add_comm]
    exact h
  rw [Queue.resume]
  simp only [found]
  obtain ⟨s', result, steady, -⟩ | refused := held.enqueuePkt listed e.front
  · simp only [result]
    exact Steady.begin (c := .cloning nic nbuf g) steady trivial
  · simp only [refused]
    have out : (s.leaveOut clone).Steady {.ref g, .ref g} := by
      apply Steady.leaveOut
      rw [refs, ← add_assoc, add_comm] at h
      exact h
    exact Steady.begin (c := .cloneRefused nic nbuf g) out trivial

theorem resume_steady (h : s.Steady c.tokens) (proper : c.Proper s) : (s.resume c).Steady 0 := by
  cases c with
  | enqueue => exact h.resume_enqueue proper.1 proper.2
  | refused ac => exact h.trade (trades_sizeDec s ac) rfl ⟨rfl, rfl, rfl⟩
  | cloning => exact h.begin trivial
  | enqueueClone => exact h.resume_enqueueClone proper.1 proper.2
  | cloneRefused nic nbuf g =>
    have h : s.Steady ({.ref g, .ref g} + 0) := h
    exact Steady.begin (c := .cloning nic nbuf g) h.extraDetach_clone trivial
  | uncount ac g => exact h.trade (trades_giveBack s ac g) rfl ⟨rfl, rfl, rfl⟩

/-! ## Steps -/

theorem Steady.cloneBegin (h : s.Steady 0) (nic : ν) (dstSta : Option σ) (vap : ν)
    (urgent : Bool) (ac : Ac) (front alloc : Bool) :
    (s.step (.cloneBegin nic dstSta vap urgent ac front alloc)).Steady 0 := by
  simp only [step]
  split
  case isTrue =>
    have out : (s.allocPkt.leaveOut ⟨s.pkts, dstSta, vap, urgent, none⟩).Steady 0 := by
      apply Steady.leaveOut
      have steady := h.allocPkt
      rwa [add_zero] at steady
    have group := out.sound.cloneBegin
      (switchIfUrgent ⟨s.pkts, dstSta, vap, urgent, none⟩ ac front).1
      (switchIfUrgent ⟨s.pkts, dstSta, vap, urgent, none⟩ ac front).2
    rw [zero_add] at group
    have steady := out.same group ⟨fun _ _ => Iff.rfl, rfl⟩
    exact Steady.begin (c := .cloning nic _ s.extras) steady trivial
  case isFalse => exact h

theorem Steady.enqueueClone (h : s.Steady 0) (nic : ν) (nbuf : Pkt σ ν) (g : Nat) (sta : σ)
    (alloc : Bool) : (s.step (.enqueueClone nic nbuf g sta alloc)).Steady 0 := by
  simp only [step]
  split
  case isTrue ready =>
    have steady := (h.finish ready.1).allocPkt
    rw [add_comm] at steady
    have attached := steady.extraAttach
    refine Steady.begin attached ⟨rfl, ?_⟩
    intro ac
    exact ((extraAttach_frame _ g).same.peers ac (.sta sta)).2 (ready.2.1 ac)
  case isFalse => exact h

theorem Steady.cloneEnd (h : s.Steady 0) (nic : ν) (nbuf : Pkt σ ν) (g : Nat) :
    (s.step (.cloneEnd nic nbuf g)).Steady 0 := by
  simp only [step]
  split
  case isTrue mem =>
    have steady : (s.finish (.cloning nic nbuf g)).Steady ({.ref g} + 0) := h.finish mem
    obtain ⟨e, found, ⟨last, -, steady⟩ | ⟨last, steady⟩⟩ := steady.extraDetach
    · simp only [found, last, ↓reduceIte]
      exact Steady.begin (c := .uncount e.ac g) steady trivial
    · simp only [found, last, Bool.false_eq_true, ↓reduceIte]
      exact steady
  case isFalse => exact h

theorem Steady.peerInit (h : s.Steady 0) (p : Ctx σ ν) (limit : UInt32) :
    (s.step (.peerInit p limit)).Steady 0 := by
  rw [step]
  split
  case isTrue new =>
    refine ⟨h.sound.peerCtxInit new limit, ?_⟩
    intro c mem
    exact (h.proper c mem).mono fun q _ listed ac => List.mem_cons_of_mem p (listed ac)
  case isFalse => exact h

theorem Steady.peerCleanup (h : s.Steady 0) (p : Ctx σ ν) :
    (s.step (.peerCleanup p)).Steady 0 := by
  rw [step]
  split
  case isTrue ready =>
    obtain ⟨listed, idle⟩ := ready
    have nodup : acs.Nodup := by decide
    obtain ⟨sound, calls, peers⟩ := h.sound.cleanupLists nodup fun ac _ => listed ac
    refine ⟨by rw [peerCtxCleanup, calls]; exact sound, ?_⟩
    intro c mem
    rw [peerCtxCleanup, calls] at mem
    apply (h.proper c mem).mono
    intro q target listed ac
    have ne : q ≠ p := by
      rintro rfl
      exact idle c mem target
    exact (peers ac q ne).2 (listed ac)
  case isFalse => exact h

theorem step_steady (h : s.Steady 0) (e : Event σ ν) : (s.step e).Steady 0 := by
  cases e with
  | enqueue nic dstSta vap urgent ac front =>
    simp only [step]
    split
    case isTrue listed =>
      have steady := h.allocPkt.sizeInc
        (switchIfUrgent ⟨s.pkts, dstSta, vap, urgent, none⟩ ac front).1
      exact steady.begin ⟨rfl, listed⟩
    case isFalse => exact h
  | cloneBegin => exact h.cloneBegin ..
  | enqueueClone => exact h.enqueueClone ..
  | cloneEnd => exact h.cloneEnd ..
  | resume c =>
    rw [step]
    split
    case isTrue mem =>
      apply resume_steady (h.finish mem)
      exact (h.proper c mem).mono fun _ _ listed => listed
    case isFalse => exact h
  | flush hw =>
    obtain ⟨sound, same⟩ := h.sound.processPackets hw
    exact h.same sound same
  | cancelAllPackets p | cancelAllPacketsForVap p vap =>
    rw [step]
    split
    case isTrue listed =>
      obtain ⟨sound, same⟩ := h.sound.cancelAcs listed
      exact h.same sound same
    case isFalse => exact h
  | peerInit => exact h.peerInit ..
  | peerCleanup => exact h.peerCleanup ..
  | confirm x =>
    rw [step]
    split
    case isTrue mem => exact h.trade (trades_confirm mem _) rfl ⟨rfl, rfl, rfl⟩
    case isFalse => exact h
  | setTx | setLimits | setHwTxProhibited =>
    exact ⟨⟨h.sound.balanced, h.sound.live, h.sound.nodup, h.sound.stray⟩, h.proper⟩

theorem run_steady (globalQueueLimit peerQueueLimit : Ac → Nat) (events : List (Event σ ν)) :
    (events.foldl step (init globalQueueLimit peerQueueLimit)).Steady 0 := by
  generalize start : init globalQueueLimit peerQueueLimit = s
  have h : s.Steady 0 := start ▸ init_steady globalQueueLimit peerQueueLimit
  clear start
  induction events generalizing s with
  | nil => exact h
  | cons e events ih => exact ih _ (step_steady h e)

end Calls

/-! ## What the balance says -/

/-- How many places in `size` the calls on the way hold. -/
def underway (s : Queue σ ν) (ac : Ac) : Nat := (s.calls.map (Call.counts ac)).sum

/-- How many references to a block the calls on the way hold. -/
def holders (s : Queue σ ν) (g : Nat) : Nat := (s.calls.map (Call.holds g)).sum

/-- The packets that were handed to the hardware. -/
def handed (s : Queue σ ν) : Multiset Nat := s.inHw.map (·.pkt.id) + s.confirmed

theorem Steady.count (h : s.Steady 0) (t : Token) :
    s.balance t = (s.calls.map fun c => c.tokens.count t).sum := by
  rw [h.sound.balanced, zero_add, Multiset.count_bind]

theorem Steady.size (h : s.Steady 0) (ac : Ac) :
    s.size ac = s.plain ac + s.liveGroups ac + s.underway ac := by
  have count := h.count (.size ac)
  have places : (fun c : Call σ ν => c.tokens.count (.size ac)) = Call.counts ac := by
    funext c
    cases c <;> simp [Call.tokens, Call.counts, Multiset.count_cons, Multiset.count_singleton,
      eq_comm (a := ac)]
  rw [places, balance, ← underway] at count
  omega

theorem underway_of_waits (waits : ∀ c ∈ s.calls, c.Waits) (ac : Ac) : s.underway ac = 0 := by
  apply Multiset.sum_eq_zero
  intro n mem
  obtain ⟨c, called, rfl⟩ := Multiset.mem_map.1 mem
  have waits := waits c called
  cases c with
  | cloning => rfl
  | enqueue | refused | enqueueClone | cloneRefused | uncount => cases waits

theorem Steady.refs (h : s.Steady 0) (g : Nat) :
    s.refCnt g = s.inLists (fun pkt => pkt.rmcast = some g) + s.holders g := by
  have count := h.count (.ref g)
  have refs : (fun c : Call σ ν => c.tokens.count (.ref g)) = Call.holds g := by
    funext c
    cases c with
    | enqueueClone _ _ g' | cloneRefused _ _ g' =>
      by_cases same : g = g'
      · simp [Call.tokens, Call.holds, same]
      · simp [Call.tokens, Call.holds, same, Ne.symm same]
    | cloning => simp [Call.tokens, Call.holds, Multiset.count_singleton, eq_comm (a := g)]
    | enqueue | refused | uncount => simp [Call.tokens, Call.holds]
  rw [refs, balance, ← holders] at count
  omega

/-- Every group is there, or about to give its place back, or has given it back once. -/
theorem Steady.groups (h : s.Steady 0) {g : Nat} (lt : g < s.extras) :
    s.released.count g + (s.calls.map fun c => c.tokens.count (.group g)).sum +
      (s.extra g).isSome.toNat = 1 := by
  have count := h.count (.group g)
  rw [balance, if_pos lt] at count
  omega

theorem Steady.released_le (h : s.Steady 0) (g : Nat) : s.released.count g ≤ 1 := by
  have count := h.count (.group g)
  rw [balance] at count
  split at count <;> omega

theorem Steady.released_of_live (h : s.Steady 0) {g : Nat} (lt : g < s.extras)
    (live : (s.extra g).isSome) : s.released.count g = 0 := by
  have groups := h.groups lt
  rw [live, Bool.toNat_true] at groups
  omega

theorem Steady.released_of_gone (h : s.Steady 0) {g : Nat} (lt : g < s.extras)
    (gone : s.extra g = none) (done : ∀ ac, .uncount ac g ∉ s.calls) :
    s.released.count g = 1 := by
  have groups := h.groups lt
  have none : (s.calls.map fun c => c.tokens.count (.group g)).sum = 0 := by
    apply Multiset.sum_eq_zero
    intro n mem
    obtain ⟨c, called, rfl⟩ := Multiset.mem_map.1 mem
    cases c with
    | uncount ac g' =>
      by_cases same : g = g'
      · subst same
        exact absurd called (done ac)
      · simp [Call.tokens, same]
    | cloning | enqueue | refused | enqueueClone | cloneRefused => simp [Call.tokens]
  rw [gone, none] at groups
  simpa using groups

/-- Every packet that was accepted is in one place. -/
theorem Steady.places (h : s.Steady 0) {id : Nat} (accepted : id ∈ s.accepted) :
    s.inLists (fun pkt => pkt.id = id) + s.handed.count id + s.dropped.count id = 1 := by
  have packet := h.count (.packet id)
  have pending := h.count (.pending id)
  have some := Multiset.one_le_count_iff_mem.2 accepted
  have none : (s.calls.map fun c => c.tokens.count (.packet id)).sum = 0 := by
    apply Multiset.sum_eq_zero
    intro n mem
    obtain ⟨c, -, rfl⟩ := Multiset.mem_map.1 mem
    cases c <;> simp [Call.tokens]
  rw [none, balance] at packet
  rw [balance] at pending
  rw [handed, Multiset.count_add]
  split at pending <;> omega

/-- The accounting of the send queue, in every run. The sizes of the categories count the packets
in the lists and the groups of clones, with what the calls on the way have counted. -/
theorem size_and_packets_accounted [DecidableEq σ] [DecidableEq ν]
    (globalQueueLimit peerQueueLimit : Ac → Nat) (events : List (Event σ ν)) :
    let s := events.foldl step (init globalQueueLimit peerQueueLimit)
    (∀ ac, s.size ac = s.plain ac + s.liveGroups ac + s.underway ac) ∧
    ((∀ c ∈ s.calls, c.Waits) → ∀ ac, s.size ac = s.plain ac + s.liveGroups ac) ∧
    (∀ g, s.refCnt g = s.inLists (fun pkt => pkt.rmcast = some g) + s.holders g) ∧
    (∀ g, s.released.count g ≤ 1) ∧
    (∀ g < s.extras, (s.extra g).isSome → s.released.count g = 0) ∧
    (∀ g < s.extras, s.extra g = none → (∀ ac, .uncount ac g ∉ s.calls) →
      s.released.count g = 1) ∧
    (∀ id ∈ s.accepted,
      s.inLists (fun pkt => pkt.id = id) + s.handed.count id + s.dropped.count id = 1) ∧
    (∀ p ac, p ∉ s.peers ac → s.buflist p ac = []) ∧
    ∀ ac, 0 ≤ s.size ac := by
  intro s
  have steady : s.Steady 0 := run_steady globalQueueLimit peerQueueLimit events
  have size := steady.size
  refine ⟨size, ?_, steady.refs, steady.released_le, ?_, ?_, ?_, steady.sound.stray, ?_⟩
  · intro waits ac
    have count := size ac
    rw [underway_of_waits waits ac] at count
    simpa using count
  · intro g lt live
    exact steady.released_of_live lt live
  · intro g lt gone done
    exact steady.released_of_gone lt gone done
  · intro id accepted
    exact steady.places accepted
  · intro ac
    have count := size ac
    omega

end Queue

end Wave300.Sq
