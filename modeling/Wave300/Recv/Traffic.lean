import Wave300.Lib.Trace
import Wave300.Recv.Conservation
import Wave300.Recv.Transmit

/-!
# References over the traffic

Whatever the order in which packets are transmitted, sent and released, frames come in and the
reordering queues are used: a buffer that is in a queue or with the hardware has the references that
packets took, a host has those that it took, and nothing else has one.
-/

namespace Wave300.Recv

open Hstdb (Sta Addr Refs behind)
open Lib (Runs)

variable {env : Nat → Answers} {c : Core} {b : Nbuf} {w w' : World} {s s' : Traffic}
  {due due' finds finds' : Sta → Int}

/-! ## What becomes of the reordering queues -/

namespace World

/-- The reordering queues are in order, those in use and those that are not. -/
def Queued (w : World) : Prop := ∀ k, Rod.Sound (w.rod k)

@[simp] theorem incref_rod (o : Option Sta) (w : World) : (w.incref o).rod = w.rod := by
  cases o <;> rfl

@[simp] theorem decref_rod (o : Option Sta) (w : World) : (w.decref o).rod = w.rod := by
  cases o <;> rfl

@[simp] theorem found_rod (s : Sta) (w : World) : (w.found s).rod = w.rod := rfl

@[simp] theorem lost_rod (s : Sta) (w : World) : (w.lost s).rod = w.rod := rfl

@[simp] theorem free_rod (b : Nbuf) (w : World) : (w.free b).rod = w.rod := by simp [free]

theorem foldl_rod {α : Type} {step : World → α → World} (each : ∀ w x, (step w x).rod = w.rod)
    (l : List α) (w : World) : (l.foldl step w).rod = w.rod := by
  induction l generalizing w with
  | nil => rfl
  | cons x l ih => rw [List.foldl_cons, ih, each]

@[simp] theorem freeSubFrames_rod (l : List Nbuf) (w : World) :
    (w.freeSubFrames l).rod = w.rod := foldl_rod (fun w b => free_rod b w) l w

@[simp] theorem enqueue_rod (ok : Bool) (b : Nbuf) (w : World) : (w.enqueue ok b).rod = w.rod := by
  cases ok with
  | true => rfl
  | false => exact free_rod b w

theorem enqueueClone_rod (a : Answers) (b : Nbuf) (s : Sta) (w : World) :
    (w.enqueueClone a b s).rod = w.rod := by
  unfold enqueueClone
  split <;> simp

@[simp] theorem enqueueClones_rod (a : Answers) (b : Nbuf) (l : List Sta) (w : World) :
    (w.enqueueClones a b l).rod = w.rod := by
  refine foldl_rod ?_ l w
  intro w s
  split
  · rfl
  · exact enqueueClone_rod a b s w

@[simp] theorem transmitNonRmcast_rod (c : Core) (a : Answers) (b : Nbuf) (w : World) :
    (w.transmitNonRmcast c a b).rod = w.rod := by
  unfold transmitNonRmcast
  split
  · dsimp only
    split <;> split <;> simp
  · simp

@[simp] theorem mcTransmit_rod (c : Core) (a : Answers) (b : Nbuf) (w : World) :
    (w.mcTransmit c a b).rod = w.rod := by
  unfold mcTransmit
  split
  · split <;> simp
  split
  · simp
  split
  · simp
  split
  · simp
  · simp
  · split <;> simp

theorem sendUp_rod (b : Nbuf) (w : World) : (w.sendUp env c b).rod = w.rod := by
  have forwarded (w : World) (a : Answers) : (if b.forward && a.ac && a.cloned then
      (w.cloneWithPriv b).mcTransmit c a b else w).rod = w.rod := by
    split <;> simp [cloneWithPriv]
  unfold sendUp
  dsimp only
  split
  · split
    · exact (free_rod b _).trans (forwarded _ _)
    · exact (free_rod b _).trans (forwarded _ _)
  · exact (free_rod b _).trans (forwarded _ _)

theorem detectReplayOrSendup_rod (l : List Nbuf) (w : World) :
    (w.detectReplayOrSendup env c l).rod = w.rod := by
  unfold detectReplayOrSendup
  dsimp only
  split
  · exact freeSubFrames_rod l _
  · exact foldl_rod (fun w b => sendUp_rod b w) l _

theorem rodCall_rod (k : Sta × Fin 8) (call : Rod.Call (List Nbuf)) (w : World) :
    (w.rodCall env c k call).rod =
      Function.update w.rod k (unlogged (Rod.call (unlogged (w.rod k)) call)) := by
  unfold rodCall
  rw [foldl_rod fun w d => detectReplayOrSendup_rod _ w, foldl_rod fun w d => freeSubFrames_rod _ w]

theorem sound_unlogged {q : Rod.Queue (List Nbuf)} (h : Rod.Sound q) : Rod.Sound (unlogged q) :=
  ⟨h.count, h.beyond, h.slot, h.window, h.head, h.used, h.unused⟩

theorem Queued.rodCall (h : w.Queued) {k : Sta × Fin 8} {call : Rod.Call (List Nbuf)}
    (after : Rod.Sound (Rod.call (unlogged (w.rod k)) call)) : (w.rodCall env c k call).Queued := by
  intro j
  rw [rodCall_rod]
  by_cases here : j = k
  · subst here
    rw [Function.update_self]
    exact sound_unlogged after
  · rw [Function.update_of_ne here]
    exact h j

theorem Queued.same (h : w.Queued) (rod : w'.rod = w.rod) : w'.Queued := by
  intro k
  rw [rod]
  exact h k

theorem setDstSta_rod (s : Sta) (b : Nbuf) (w : World) : (w.setDstSta s b).1.rod = w.rod := by
  unfold setDstSta
  split <;> simp

theorem analyzeRxPacket_rod (hDest : Addr) (b : Nbuf) (w : World) :
    (w.analyzeRxPacket c hDest b).1.rod = w.rod := by
  unfold analyzeRxPacket
  dsimp only
  split
  · rfl
  split
  · rfl
  split
  · rfl
  split
  · split
    · exact setDstSta_rod _ _ _
    · rfl
  · rfl

theorem makeClones_rod (f : Frame) (b : Nbuf) (k : Nat) (w : World) :
    (w.makeClones c f b k).1.rod = w.rod := by
  induction k with
  | zero => rfl
  | succ k ih =>
    simp only [makeClones, analyzeRxPacket_rod, incref_rod]
    exact ih

theorem parseAMsdu_rod (f : Frame) (b : Nbuf) (w : World) :
    (w.parseAMsdu c f b).1.rod = w.rod := by
  unfold parseAMsdu
  split
  next t ok _ =>
    have made := makeClones_rod (c := c) f b t.clones.length w
    dsimp only
    split
    · exact (analyzeRxPacket_rod _ _ _).trans made
    · exact made
  · rfl

theorem checkHost_rod (f : Frame) (s : Sta) (w : World) : (w.checkHost c f s).1.rod = w.rod := by
  unfold checkHost
  split
  · split
    · rfl
    · split <;> rfl
  · rfl

theorem Queued.dispatch (h : w.Queued) (f : Frame) (s : Sta) (chain : List Nbuf) :
    (w.dispatch env c f s chain).Queued := by
  unfold World.dispatch
  split
  · have sound := sound_unlogged (h (s, f.priority))
    have queued :
        (w.rodCall env c (s, f.priority) (.between (.packet f.now ⟨f.seq, chain⟩))).Queued :=
      h.rodCall (sound.step (.packet f.now ⟨f.seq, chain⟩)).sound
    exact queued
  · exact h.same (detectReplayOrSendup_rod chain w)

theorem Queued.handleData (h : w.Queued) (f : Frame) (s : Sta) (b : Nbuf) :
    (w.handleData env c f s b).1.Queued := by
  unfold World.handleData
  dsimp only
  split
  · exact h
  split
  · have parsed := h.same (parseAMsdu_rod (c := c) f { b with directed := f.addr1 = c.macAddr } w)
    split
    · exact parsed.dispatch f s _
    · exact parsed
  · have checked := h.same (checkHost_rod (c := c) f s w)
    split
    · exact (checked.same (analyzeRxPacket_rod _ _ _)).dispatch f s _
    · exact checked

theorem Queued.handleRxInd (h : w.Queued) (f : Frame) : (w.handleRxInd env c f).Queued := by
  unfold World.handleRxInd
  dsimp only
  split
  · exact h.same (freeSubFrames_rod _ w)
  next s _ =>
    have taken : ((w.found s).incref (w.stadb f.addr2)).Queued := h.same (incref_rod _ _)
    exact (taken.handleData f s _).same ((freeSubFrames_rod _ _).trans (lost_rod s _))

end World

/-- Between packets, a call gives nothing to a queue: what it takes out pays for itself. -/
theorem spends_rodCall (queued : w.Queued) {k : Sta × Fin 8} (known : k.1 ∈ w.stas)
    {call : Rod.Call (List Nbuf)} (valid : call.Valid) (nothing : call.offered = []) :
    Spends w (w.rodCall env c k call) fun _ => 0 := by
  have accounted := (World.sound_unlogged (queued k)).call valid
  unfold World.rodCall
  generalize Rod.call (unlogged (w.rod k)) call = q at accounted ⊢
  have updated := spends_update known (unlogged q) (World.sound_unlogged accounted.sound).bookkept
  have dropped := updated.trans (.foldl (fun w d => w.freeSubFrames d.packet.nbuf)
    (fun d => ownsAll d.packet.nbuf) (fun w d => spends_freeSubFrames _ w) q.drops _) fun s => rfl
  refine dropped.trans (.foldl (fun w d => w.detectReplayOrSendup env c d.packet.nbuf)
    (fun d => ownsAll d.packet.nbuf) (fun w d => spends_detectReplayOrSendup env c _ w) q.sentUp _)
    ?_
  intro s
  have account := accounted.account
  rw [nothing] at account
  have owns := congrArg (fun m => (m.map fun p => ownsAll p.nbuf s).sum) account
  simp only [Rod.Queue.account, unlogged, List.map_nil, Multiset.coe_nil, zero_add, add_zero,
    Multiset.map_add, Multiset.sum_add, Multiset.map_coe, Multiset.sum_coe, List.map_map] at owns
  have after : ownsHeld (unlogged q).held s = (q.held.map fun p => ownsAll p.nbuf s).sum := rfl
  have before : ownsHeld (w.rod k).held s = (Multiset.map (fun p => ownsAll p.nbuf s)
    (Rod.Queue.held { w.rod k with sentUp := [], drops := [] })).sum := rfl
  rw [after, before, ← owns]
  simp only [Function.comp_def]
  omega

/-! ## What a step owes -/

/-- From one state to another, the references that are due to buffers are those of the buffers that
came into the hardware or out of it, and every look-up is paid. -/
structure Carries (s s' : Traffic) : Prop where
  moves : Moves s.world s'.world (fun x => ownsAll s'.sent x - ownsAll s.sent x) fun _ => 0
  queued : s.world.Queued → s'.world.Queued

/-- The same, told another way. -/
theorem Moves.congr (h : Moves w w' due finds) (same : ∀ x, due' x = due x)
    (same' : ∀ x, finds' x = finds x) : Moves w w' due' finds' := by
  refine ⟨?_, ?_, h.hosts, h.ordered, h.stadb, h.stas⟩
  · intro x
    rw [h.due, same]
  · intro x
    rw [h.finds, same']

/-- Nothing comes into the hardware or out of it. -/
theorem Moves.carries (h : Moves s.world w (fun _ => 0) fun _ => 0)
    (queued : s.world.Queued → w.Queued) {probe : UInt32} :
    Carries s ⟨w, s.sent, probe⟩ where
  moves := h.congr (by simp) fun _ => rfl
  queued := queued

theorem moves_addressed (x : Sta) (w : World) :
    Moves w (w.addressed x) (fun y => if x = y then 1 else 0) fun _ => 0 := by
  have taken := (moves_found x w).trans (spends_incref (some x) (w.found x)).moves
    (fun _ => rfl) fun _ => rfl
  refine taken.trans (moves_lost x _) ?_ ?_
  · simp
  · simp

theorem moves_learnSource (c : Core) (p : TxData) (w : World) :
    Moves w (w.learnSource c p) (fun _ => 0) fun _ => 0 := by
  have same : Moves w w (fun _ => 0) fun _ => 0 := (Spends.refl w).moves
  unfold World.learnSource
  split
  · exact same
  split
  · refine ⟨same.due, same.finds, ?_, id, rfl, rfl⟩
    intro started
    simp only [Hstdb.Db.updateDefaultHost_hosts, Hstdb.Db.updateDefaultHost_refs]
    exact .refl started
  · split
    next x _ =>
      have learnt := (moves_found x w).trans (moves_updateHost p.hst p.hSource x (w.found x))
        (fun _ => (add_zero _).symm) fun _ => (add_zero _).symm
      refine learnt.trans (moves_lost x _) ?_ ?_
      · simp
      · simp
    · exact same
  · exact same
  · exact same

/-- A buffer that has what was taken for it is transmitted. -/
theorem carries_transmitted (c : Core) (a : Answers) {probe : UInt32}
    (h : Moves s.world w b.owns fun _ => 0) (rod : w.rod = s.world.rod) :
    Carries s ⟨w.mcTransmit c a b, s.sent, probe⟩ := by
  refine Moves.carries ?_ fun queued => queued.same ((World.mcTransmit_rod c a b w).trans rod)
  exact h.trans (spends_mcTransmit c a b w).moves (by simp) (by simp)

theorem carries_freed {probe : UInt32} (h : Moves s.world w b.owns fun _ => 0)
    (rod : w.rod = s.world.rod) : Carries s ⟨w.free b, s.sent, probe⟩ := by
  refine Moves.carries ?_ fun queued => queued.same ((World.free_rod b w).trans rod)
  exact h.trans (spends_free b w).moves (by simp) (by simp)

theorem addressed_rod (x : Sta) (w : World) : (w.addressed x).rod = w.rod := by
  simp [World.addressed]

theorem learnSource_rod (p : TxData) (w : World) : (w.learnSource c p).rod = w.rod := by
  unfold World.learnSource
  split
  · rfl
  split
  · rfl
  · split <;> rfl
  · rfl
  · rfl

/-- The probe comes in place of the packet, which is freed. -/
theorem substIpToArpProbe_some {p : TxData} {b b' : Nbuf}
    (probe : s.substIpToArpProbe p b = some (s', b')) :
    s'.world = s.world.free b ∧ s'.sent = s.sent ∧ b'.owns = fun _ => 0 := by
  unfold Traffic.substIpToArpProbe at probe
  split at probe
  · cases probe
  split at probe
  · cases probe
  split at probe
  · cases probe
  · obtain ⟨rfl, rfl⟩ := Prod.mk.inj (Option.some.inj probe)
    exact ⟨rfl, rfl, rfl⟩

theorem carries_transmit (c : Core) (p : TxData) (s : Traffic) :
    Carries s (s.transmit c p Nbuf.fresh) := by
  have same : Moves s.world s.world (fun _ => 0) fun _ => 0 := (Spends.refl s.world).moves
  unfold Traffic.transmit
  dsimp only
  split
  · exact carries_transmitted c p.answers same rfl
  split
  · exact carries_transmitted c p.answers same rfl
  split
  next x _ =>
    refine carries_transmitted c p.answers ?_ (addressed_rod x s.world)
    refine (moves_addressed x s.world).congr ?_ fun _ => rfl
    simp [Nbuf.owns, Nbuf.fresh]
  split
  next s' b' probe =>
    split at probe
    · obtain ⟨freed, sent, owns⟩ := substIpToArpProbe_some probe
      have paid := (spends_free Nbuf.fresh s.world).moves
      rw [sent]
      refine carries_transmitted c p.answers ?_ ?_
      · rw [freed, owns]
        exact paid
      · rw [freed]
        exact World.free_rod _ _
    · cases probe
  · exact carries_freed same rfl

theorem Carries.trans {s'' : Traffic} (h : Carries s s') (h' : Carries s' s'') : Carries s s'' where
  moves := h.moves.trans h'.moves (by simp) (by simp)
  queued := h'.queued ∘ h.queued

theorem carries_handleTxData (c : Core) (p : TxData) (s : Traffic) :
    Carries s (s.handleTxData c p) := by
  have same : Moves s.world s.world (fun _ => 0) fun _ => 0 := (Spends.refl s.world).moves
  unfold Traffic.handleTxData
  dsimp only
  split
  · exact carries_freed same rfl
  split
  · exact carries_freed same rfl
  · have learnt : Carries s { s with world := s.world.learnSource c p } :=
      (moves_learnSource c p s.world).carries fun queued => queued.same (learnSource_rod p s.world)
    exact learnt.trans (carries_transmit c p _)

/-- A buffer comes out of a list with what it owns. -/
theorem ownsAll_eraseIdx {l : List Nbuf} {i : Nat} (there : l[i]? = some b) (x : Sta) :
    ownsAll (l.eraseIdx i) x = ownsAll l x - b.owns x := by
  obtain ⟨below, is⟩ := List.getElem?_eq_some_iff.1 there
  have perm := (List.getElem_cons_eraseIdx_perm below).map (Nbuf.owns · x)
  have sums := perm.sum_eq
  rw [is, List.map_cons, List.sum_cons] at sums
  simp only [ownsAll]
  omega

/-- What was taken for a buffer stays with it, whether or not the hardware takes it. -/
theorem moves_xmit (c : Core) (a : Sending) (b : Nbuf) (w : World) :
    Moves w (w.xmit c a b).1 (fun x => (w.xmit c a b).2.1.owns x - b.owns x) (fun _ => 0) ∧
      (w.xmit c a b).1.rod = w.rod := by
  have same : Moves w w (fun x => b.owns x - b.owns x) fun _ => 0 :=
    (Spends.refl w).moves.congr (by simp) fun _ => rfl
  unfold World.xmit
  split
  · exact ⟨same, rfl⟩
  split
  · split <;> exact ⟨same, rfl⟩
  next single =>
    split
    · exact ⟨same, rfl⟩
    split
    next x _ =>
      have unset : b.dst = none := by
        simp only [Nbuf.single, Bool.or_eq_true, not_or] at single
        simpa using single.2
      refine ⟨(moves_addressed x w).congr ?_ fun _ => rfl, addressed_rod x w⟩
      intro y
      simp only [Nbuf.owns, unset, reduceCtorEq, if_false, Option.some.injEq]
      omega
    · exact ⟨same, rfl⟩

theorem carries_send (c : Core) (i : Nat) (a : Sending) (s : Traffic) :
    Carries s (s.send c i a) := by
  unfold Traffic.send
  split
  · exact (Spends.refl s.world).moves.carries id
  next b there =>
    have taken : Spends s.world { s.world with queued := s.world.queued.eraseIdx i }
        fun x => - b.owns x := by
      refine ⟨?_, id, rfl, rfl, rfl, fun _ => rfl⟩
      intro x
      simp only [World.due, World.owned, ownsAll_eraseIdx there]
      omega
    obtain ⟨moves, rod⟩ :=
      moves_xmit c a b { s.world with queued := s.world.queued.eraseIdx i }
    have out := taken.moves.trans moves (fun _ => rfl) fun _ => rfl
    dsimp only at moves rod out ⊢
    generalize World.xmit c a b _ = r at moves rod out ⊢
    obtain ⟨u, b', took⟩ := r
    cases took with
    | true =>
      refine ⟨out.congr ?_ (by simp), fun queued => queued.same rod⟩
      intro x
      simp only [if_true, ownsAll_cons]
      omega
    | false =>
      refine carries_freed (out.congr ?_ (by simp)) rod
      intro x
      dsimp only
      omega

theorem carries_releaseTxData (i : Nat) (s : Traffic) : Carries s (s.releaseTxData i) := by
  unfold Traffic.releaseTxData
  split
  · exact (Spends.refl s.world).moves.carries id
  next b there =>
    refine ⟨(spends_free b s.world).moves.congr ?_ fun _ => rfl,
      fun queued => queued.same (World.free_rod b s.world)⟩
    intro x
    simp only [ownsAll_eraseIdx there]
    omega

theorem ownsAll_filter (p : Nbuf → Bool) (l : List Nbuf) (x : Sta) :
    ownsAll (l.filter p) x + ownsAll (l.filter fun b => !p b) x = ownsAll l x := by
  induction l with
  | nil => rfl
  | cons b l ih =>
    cases is : p b with
    | true =>
      simp only [List.filter_cons, is, if_true, Bool.not_true, Bool.false_eq_true, if_false,
        ownsAll_cons]
      omega
    | false =>
      simp only [List.filter_cons, is, if_true, Bool.not_false, Bool.false_eq_true, if_false,
        ownsAll_cons]
      omega

theorem carries_cancelAllPackets (o : Option Sta) (s : Traffic) :
    Carries s (s.cancelAllPackets o) := by
  unfold Traffic.cancelAllPackets
  dsimp only
  have left : Spends s.world
      { s.world with queued := s.world.queued.filter fun b => !decide (b.dst = o) }
      fun x => - ownsAll (s.world.queued.filter fun b => b.dst = o) x := by
    refine ⟨?_, id, rfl, rfl, rfl, fun _ => rfl⟩
    intro x
    have split := ownsAll_filter (fun b => b.dst = o) s.world.queued x
    simp only [World.due, World.owned]
    omega
  have freed := left.trans (spends_freeSubFrames _ _) fun _ => (neg_add_cancel _).symm
  exact freed.moves.carries fun queued => queued.same (World.freeSubFrames_rod _ _)

/-! ## Runs -/

/-- What holds between steps: hosts with a station were started, the reordering queues are in order,
and the stations found are entries. -/
structure Traffic.Sound (s : Traffic) : Prop where
  hosts : ∀ h ∈ s.world.db.hosts, Started h
  queued : s.world.Queued
  known : ∀ mac x, s.world.stadb mac = some x → x ∈ s.world.stas

/-- Every reference is that of a buffer in a queue or with the hardware, or that of a host. -/
structure Traffic.Balanced (s : Traffic) : Prop where
  finds : ∀ x, s.world.finds.owed x = 0
  packets : ∀ x, s.world.packets.owed x = s.world.owned x + ownsAll s.sent x
  hosts : ∀ x, s.world.db.refs.owed x = behind x s.world.db.hosts

/-- A frame is neither one of an own host nor an A-MSDU that ends in padding. The calls on a
reordering queue are those that hand in no packet. -/
def Traffic.Allowed (c : Core) (s : Traffic) : Event → Prop
  | .rx f => ¬ OwnHost c f s.world ∧ ¬ Padded f s.world
  | .reordering k call => k.1 ∈ s.world.stas ∧ call.Valid ∧ call.offered = []
  | .tx _ | .send _ _ | .release _ | .cancel _ => True

theorem Traffic.Sound.world (h : s.Sound) : s.world.Sound :=
  ⟨h.hosts, fun k used => (h.queued k).bookkept used, h.known⟩

theorem carries_step (env : Nat → Answers) (c : Core) (sound : s.Sound) (e : Traffic.Event)
    (allowed : s.Allowed c e) : Carries s (s.step env c e) := by
  cases e with
  | tx p => exact carries_handleTxData c p s
  | rx f =>
    obtain ⟨due, finds, moves, padded, host⟩ := moves_handleRxInd env c f sound.world
    have none := padded.2 allowed.2
    have paid := host.2 allowed.1
    refine Moves.carries (moves.congr ?_ ?_) fun queued => queued.handleRxInd f
    · exact fun x => (none x).symm
    · exact fun x => (paid x).symm
  | reordering k call =>
    obtain ⟨known, valid, nothing⟩ := allowed
    have spends : Spends s.world (s.world.rodCall env c k call) fun _ => 0 :=
      spends_rodCall sound.queued known valid nothing
    exact spends.moves.carries fun queued =>
      queued.rodCall ((World.sound_unlogged (queued k)).call valid).sound
  | send i a => exact carries_send c i a s
  | release i => exact carries_releaseTxData i s
  | cancel o => exact carries_cancelAllPackets o s

theorem Traffic.Sound.carried (h : s.Sound) (carries : Carries s s') : s'.Sound where
  hosts := (carries.moves.hosts h.hosts).started
  queued := carries.queued h.queued
  known := by
    rw [carries.moves.stadb, carries.moves.stas]
    exact h.known

theorem Traffic.Balanced.carried (h : s.Balanced) (sound : s.Sound) (carries : Carries s s') :
    s'.Balanced where
  finds x := by rw [carries.moves.finds, h.finds, add_zero]
  packets x := by
    have due := carries.moves.due x
    have before := h.packets x
    simp only [World.due] at due
    omega
  hosts x := by
    have owed := (carries.moves.hosts sound.hosts).owed x
    have before := h.hosts x
    omega

/-- In whatever order packets are transmitted, sent and released and frames come in, no reference
on a station is lost and none is given up too early: look-ups have none left, those of packets are
those of the buffers in the queues and with the hardware, and those of hosts are one for each
host. -/
theorem traffic_keeps_references (env : Nat → Answers) (c : Core) {s₀ s : Traffic}
    (sound : s₀.Sound) (balanced : s₀.Balanced)
    (run : Runs (Traffic.step env c) (Traffic.Allowed c) s₀ s) : s.Balanced := by
  have both : s.Sound ∧ s.Balanced := by
    refine run.invariant (P := fun s => s.Sound ∧ s.Balanced) ⟨sound, balanced⟩ ?_
    rintro s e ⟨sound, balanced⟩ allowed
    have carries := carries_step env c sound e allowed
    exact ⟨sound.carried carries, balanced.carried sound carries⟩
  exact both.2

/-- A station with its AP, before any traffic. -/
def quiet : Traffic := ⟨{ staWorld with db := { staWorld.db with hosts := [] } }, [], 0⟩

/-- A host behind the station writes to another behind the AP. -/
def hostPacket : TxData where
  hSource := ownHost.addr
  hDest _ := 8
  eapol := false
  ip := none
  connections := true
  ap := some ap
  hst := Hstdb.calm
  answers := granted 0
  now := 0
  probed := 0
  toMs x := x
  alloc := true

/-- The AP sends to all. -/
def apBroadcast : Frame := { echo with hSource := ap.addr }

theorem traffic_keeps_references_host :
    let sending : Sending := ⟨false, some ap, fun _ => true, true⟩
    let s := [.tx hostPacket, .send 0 sending, .rx apBroadcast, .tx hostPacket, .release 0].foldl
      (Traffic.step granted wdsSta) quiet
    s.Balanced ∧ s.world.queued.length = 1 ∧ s.sent = [] ∧ s.world.db.hosts.length = 1 := by
  intro sending s
  have sound : quiet.Sound := ⟨fun h mem => absurd mem List.not_mem_nil,
    fun _ => Rod.Sound.zeroed, staWorld_sound.known⟩
  have empty (x : Sta) : ownsHeld (Rod.Queue.zeroed (List Nbuf)).held x = 0 := by
    rw [Rod.held_empty fun _ => rfl]
    rfl
  have balanced : quiet.Balanced := by
    refine ⟨fun _ => rfl, ?_, fun _ => rfl⟩
    intro x
    simp [quiet, staWorld, World.owned, empty, Refs.owed]
  have allowed : Lib.Allowed (Traffic.step granted wdsSta) (Traffic.Allowed wdsSta) quiet
      [.tx hostPacket, .send 0 sending, .rx apBroadcast, .tx hostPacket, .release 0] := by
    refine ⟨trivial, trivial, ⟨?_, ?_⟩, trivial, trivial, trivial⟩
    · rintro ⟨-, -, -, -, x, ⟨carried, -⟩, other⟩
      have known : quiet.world.stadb ap.addr = some ap := by decide
      have is : ap = x := Option.some.inj (known.symm.trans carried)
      exact other (is ▸ rfl)
    · rintro ⟨aMsdu, -⟩
      cases aMsdu
  exact ⟨traffic_keeps_references granted wdsSta sound balanced (.of_allowed allowed), by decide,
    by decide, by decide⟩

end Wave300.Recv
