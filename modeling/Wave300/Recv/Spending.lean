import Wave300.Recv.Buffers

/-!
# References of buffers

A buffer owns the references on its stations. The references that buffers took and that no buffer
in a queue owns are due to the buffers in hand: what is done with a buffer pays for it.
-/

namespace Wave300.Recv

open Hstdb (Sta Addr Refs)
open Rod (Bookkept Packet)

/-- The references on a station that a buffer owns. -/
def Nbuf.owns (b : Nbuf) (s : Sta) : Int :=
  (if b.src = some s then 1 else 0) + if b.dst = some s then 1 else 0

/-- The references on a station that the buffers of a chain own. -/
def ownsAll (l : List Nbuf) (s : Sta) : Int := (l.map (Nbuf.owns · s)).sum

/-- The references on a station that the chains of a queue own. -/
def ownsHeld (m : Multiset (Packet (List Nbuf))) (s : Sta) : Int :=
  (m.map fun p => ownsAll p.nbuf s).sum

namespace World

/-- The references on a station that the buffers in the queues own. -/
def owned (w : World) (s : Sta) : Int :=
  ownsAll w.queued s + ∑ k ∈ w.stas ×ˢ Finset.univ, ownsHeld (w.rod k).held s

/-- The references on a station that buffers took and that no buffer in a queue owns. -/
def due (w : World) (s : Sta) : Int := w.packets.owed s - w.owned s

/-- Every queue in use keeps its books. -/
def Ordered (w : World) : Prop := ∀ k, (w.rod k).used = true → Bookkept (w.rod k)

end World

variable {env : Nat → Answers} {c : Core} {a : Answers} {b : Nbuf} {l l' : List Nbuf}
  {w w' w'' : World} {cost cost' : Sta → Int} {o : Option Sta}

/-- From one world to another, less is due by a cost. Nothing else is done to the stations and
hosts, and every look-up is paid. -/
structure Spends (w w' : World) (cost : Sta → Int) : Prop where
  due : ∀ s, w'.due s = w.due s - cost s
  ordered : w.Ordered → w'.Ordered
  stadb : w'.stadb = w.stadb
  db : w'.db = w.db
  stas : w'.stas = w.stas
  finds : ∀ s, w'.finds.owed s = w.finds.owed s

@[simp] theorem ownsAll_nil (s : Sta) : ownsAll [] s = 0 := rfl

@[simp] theorem ownsAll_cons (b : Nbuf) (l : List Nbuf) (s : Sta) :
    ownsAll (b :: l) s = b.owns s + ownsAll l s := by
  simp [ownsAll]

@[simp] theorem ownsAll_append (l l' : List Nbuf) (s : Sta) :
    ownsAll (l ++ l') s = ownsAll l s + ownsAll l' s := by
  simp [ownsAll]

namespace Spends

theorem refl (w : World) : Spends w w fun _ => 0 := ⟨by simp, id, rfl, rfl, rfl, fun _ => rfl⟩

/-- The cost of two steps, one after the other. -/
theorem trans {all : Sta → Int} (h : Spends w w' cost) (h' : Spends w' w'' cost')
    (sum : ∀ s, all s = cost s + cost' s) : Spends w w'' all where
  due s := by
    rw [h'.due, h.due, sum]
    omega
  ordered := h'.ordered ∘ h.ordered
  stadb := h'.stadb.trans h.stadb
  db := h'.db.trans h.db
  stas := h'.stas.trans h.stas
  finds s := (h'.finds s).trans (h.finds s)

/-- A loop that gives up what is due to an entry in each round. -/
theorem foldl {α : Type} (step : World → α → World) (cost : α → Sta → Int)
    (each : ∀ w x, Spends w (step w x) (cost x)) (xs : List α) (w : World) :
    Spends w (xs.foldl step w) fun s => (xs.map (cost · s)).sum := by
  induction xs generalizing w with
  | nil => exact refl w
  | cons x xs ih =>
    refine (each w x).trans (ih (step w x)) ?_
    intro s
    rw [List.map_cons, List.sum_cons]

end Spends

/-- Only the references of packets change. -/
theorem spends_packets {packets : Refs} (owed : ∀ s, packets.owed s = w.packets.owed s - cost s) :
    Spends w { w with packets := packets } cost where
  due s := by
    have owed := owed s
    simp only [World.due, World.owned]
    omega
  ordered h := h
  stadb := rfl
  db := rfl
  stas := rfl
  finds _ := rfl

theorem spends_decref (o : Option Sta) (w : World) :
    Spends w (w.decref o) fun s => if o = some s then 1 else 0 := by
  cases o with
  | none => exact .refl w
  | some s =>
    refine spends_packets ?_
    intro x
    simp only [Refs.owed_decref, Option.some.injEq]

theorem spends_incref (o : Option Sta) (w : World) :
    Spends w (w.incref o) fun s => - if o = some s then 1 else 0 := by
  cases o with
  | none => exact .refl w
  | some s =>
    refine spends_packets ?_
    intro x
    simp only [Refs.owed_incref, Option.some.injEq]
    omega

/-- A buffer that is freed gives back what it owns. -/
theorem spends_free (b : Nbuf) (w : World) : Spends w (w.free b) b.owns :=
  (spends_decref b.src w).trans (spends_decref b.dst _) fun _ => rfl

theorem spends_freeSubFrames (l : List Nbuf) (w : World) :
    Spends w (w.freeSubFrames l) (ownsAll l) :=
  .foldl _ Nbuf.owns (fun w b => spends_free b w) l w

theorem spends_indicate (b : Nbuf) (w : World) : Spends w (w.indicateRxData b) b.owns := by
  have freed := spends_free b w
  exact ⟨freed.due, freed.ordered, freed.stadb, freed.db, freed.stas, freed.finds⟩

/-- Put in a queue, a buffer goes on owning what it owns. -/
theorem spends_enqueue (ok : Bool) (b : Nbuf) (w : World) : Spends w (w.enqueue ok b) b.owns := by
  cases ok with
  | false => exact spends_free b w
  | true =>
    refine ⟨?_, id, rfl, rfl, rfl, fun _ => rfl⟩
    intro s
    simp only [World.enqueue, if_true, World.due, World.owned, ownsAll_cons]
    omega

theorem spends_enqueueClone (a : Answers) (b : Nbuf) (s : Sta) (w : World) :
    Spends w (w.enqueueClone a b s) fun _ => 0 := by
  unfold World.enqueueClone
  split
  · refine (spends_incref (some s) w).trans (spends_enqueue _ _ _) ?_
    intro x
    simp only [Nbuf.owns, reduceCtorEq, if_false]
    omega
  · exact .refl w

theorem spends_enqueueClones (a : Answers) (b : Nbuf) (l : List Sta) (w : World) :
    Spends w (w.enqueueClones a b l) fun _ => 0 := by
  have each (w : World) (s : Sta) :
      Spends w (if b.src = some s then w else w.enqueueClone a b s) fun _ => 0 := by
    split
    · exact .refl w
    · exact spends_enqueueClone a b s w
  refine (Spends.foldl _ (fun _ _ => 0) each l w).trans (.refl _) ?_
  simp

theorem spends_transmitNonRmcast (c : Core) (a : Answers) (b : Nbuf) (w : World) :
    Spends w (w.transmitNonRmcast c a b) b.owns := by
  have clones : Spends w (if a.cloneBegin then w.enqueueClones a b a.peers else w) fun _ => 0 := by
    split
    · exact spends_enqueueClones a b a.peers w
    · exact .refl w
  unfold World.transmitNonRmcast
  split
  · simp only
    split
    · exact clones.trans (spends_free b _) (by simp)
    · exact clones.trans (spends_enqueue a.queued b _) (by simp)
  · exact spends_enqueue a.queued b w

/-- However a buffer is transmitted, it ends in a queue or is freed. -/
theorem spends_mcTransmit (c : Core) (a : Answers) (b : Nbuf) (w : World) :
    Spends w (w.mcTransmit c a b) b.owns := by
  have plain := spends_transmitNonRmcast c a b w
  have freed := spends_free b w
  unfold World.mcTransmit
  split
  · split
    · exact plain
    · exact freed
  split
  · exact plain
  split
  · exact plain
  split
  · exact plain
  · exact freed
  next l _ =>
    split
    · exact (spends_enqueueClones a b l w).trans (spends_free b _) (by simp)
    · exact freed

theorem spends_asked (w : World) (n : Nat) : Spends w { w with asked := n } fun _ => 0 :=
  ⟨by simp [World.due, World.owned], id, rfl, rfl, rfl, fun _ => rfl⟩

/-- The clone that is forwarded pays for itself. -/
theorem spends_forward (c : Core) (a : Answers) (b : Nbuf) (w : World) :
    Spends w ((w.cloneWithPriv b).mcTransmit c a b) fun _ => 0 := by
  have cloned : Spends w (w.cloneWithPriv b) fun s => - b.owns s := by
    refine (spends_incref b.dst w).trans (spends_incref b.src _) ?_
    intro s
    simp only [Nbuf.owns]
    omega
  refine cloned.trans (spends_mcTransmit c a b _) ?_
  intro s
  omega

theorem spends_sendUp (env : Nat → Answers) (c : Core) (b : Nbuf) (w : World) :
    Spends w (w.sendUp env c b) b.owns := by
  have asked := spends_asked w (w.asked + 1)
  unfold World.sendUp
  simp only
  obtain ⟨forwarded, is⟩ : ∃ u, u = if b.forward && (env w.asked).ac && (env w.asked).cloned then
      (World.cloneWithPriv b { w with asked := w.asked + 1 }).mcTransmit c (env w.asked) b
    else { w with asked := w.asked + 1 } := ⟨_, rfl⟩
  have spends : Spends w forwarded fun _ => 0 := by
    rw [is]
    split
    · exact asked.trans (spends_forward c _ b _) (by simp)
    · exact asked
  rw [← is]
  split
  · split
    · exact spends.trans (spends_indicate b forwarded) (by simp)
    · exact spends.trans (spends_free b forwarded) (by simp)
  · exact spends.trans (spends_free b forwarded) (by simp)

/-- A chain that is checked is given up, whatever comes of the check. -/
theorem spends_detectReplayOrSendup (env : Nat → Answers) (c : Core) (l : List Nbuf) (w : World) :
    Spends w (w.detectReplayOrSendup env c l) (ownsAll l) := by
  have asked := spends_asked w (w.asked + 1)
  unfold World.detectReplayOrSendup
  simp only
  split
  · exact asked.trans (spends_freeSubFrames l _) (by simp)
  · exact asked.trans (.foldl _ Nbuf.owns (fun w b => spends_sendUp env c b w) l _)
      (by simp [ownsAll])

/-- The chains that a queue has, with those it gave away since it was asked. -/
theorem ownsHeld_reorder (now : Nat) {q : Rod.Queue (List Nbuf)}
    (books : q.used = true → Bookkept q)
    (p : Packet (List Nbuf)) (s : Sta) :
    let q' := (Rod.mtlkReorderPacket now (unlogged q) p).1
    ((q'.sentUp.map fun d => ownsAll d.packet.nbuf s).sum +
        (q'.drops.map fun d => ownsAll d.packet.nbuf s).sum) + ownsHeld q'.held s =
      ownsHeld q.held s + ownsAll p.nbuf s := by
  intro q'
  have account : q'.account = q.held + {p} := by
    cases used : q.used with
    | false =>
      have passed := Rod.reorderPacket_unused (q := unlogged q) (t := now) used p
      simp only [q', passed]
      simp only [Rod.Queue.account, Rod.Queue.held, unlogged, List.nil_append, List.map_cons,
        List.map_nil, Multiset.coe_nil, Multiset.coe_singleton, zero_add, add_comm]
    | true =>
      have books := books used
      have stepped := Rod.reorderPacket_stepped (t := now)
        (q := unlogged q)
        ⟨books.window, books.count, books.beyond, books.slot⟩ p
      rw [stepped.account]
      simp only [Rod.Queue.account, Rod.Queue.held, unlogged, List.map_nil, Multiset.coe_nil,
        zero_add, Multiset.coe_singleton]
  have owns := congrArg (fun m => (m.map fun p => ownsAll p.nbuf s).sum) account
  simp only [Rod.Queue.account, Multiset.map_add, Multiset.sum_add, Multiset.map_coe,
    Multiset.sum_coe, List.map_map, Multiset.map_singleton, Multiset.sum_singleton] at owns
  exact owns

theorem bookkept_reorder (now : Nat) {q : Rod.Queue (List Nbuf)}
    (books : q.used = true → Bookkept q)
    (p : Packet (List Nbuf))
    (used : (Rod.mtlkReorderPacket now (unlogged q) p).1.used = true) :
    Bookkept (Rod.mtlkReorderPacket now (unlogged q) p).1 := by
  cases was : q.used with
  | false =>
    rw [Rod.reorderPacket_unused (q := unlogged q) (t := now) was] at used
    exact absurd (was.symm.trans used) (by simp)
  | true =>
    have books := books was
    exact (Rod.reorderPacket_stepped (t := now) (q := unlogged q)
      ⟨books.window, books.count, books.beyond, books.slot⟩ p).bookkept

/-- One queue is exchanged for another. -/
theorem spends_update {k : Sta × Fin 8} (known : k.1 ∈ w.stas) (q : Rod.Queue (List Nbuf))
    (books : q.used = true → Bookkept q) :
    Spends w { w with rod := Function.update w.rod k q } fun s =>
      ownsHeld q.held s - ownsHeld (w.rod k).held s where
  due s := by
    have mem : k ∈ w.stas ×ˢ (Finset.univ : Finset (Fin 8)) := by simp [known]
    have others : ∑ j ∈ (w.stas ×ˢ (Finset.univ : Finset (Fin 8))).erase k,
          ownsHeld (Function.update w.rod k q j).held s =
        ∑ j ∈ (w.stas ×ˢ (Finset.univ : Finset (Fin 8))).erase k, ownsHeld (w.rod j).held s := by
      refine Finset.sum_congr rfl ?_
      intro j other
      rw [Function.update_of_ne (Finset.ne_of_mem_erase other)]
    have before := Finset.add_sum_erase _ (fun j => ownsHeld (w.rod j).held s) mem
    have after :=
      Finset.add_sum_erase _ (fun j => ownsHeld (Function.update w.rod k q j).held s) mem
    simp only [others, Function.update_self] at after
    simp only [World.due, World.owned, ← before, ← after]
    omega
  ordered := by
    intro ordered j
    by_cases here : j = k
    · subst here
      simpa using books
    · simpa [Function.update_of_ne here] using ordered j
  stadb := rfl
  db := rfl
  stas := rfl
  finds _ := rfl

/-- A chain that is put in order is kept in the queue or given up, as those that it lets go. -/
theorem spends_reorderPacket (env : Nat → Answers) (c : Core) (now seq : Nat) (l : List Nbuf)
    {k : Sta × Fin 8} (ordered : w.Ordered) (known : k.1 ∈ w.stas) :
    Spends w (w.reorderPacket env c now k seq l) (ownsAll l) := by
  have owns := fun s => ownsHeld_reorder now (ordered k) ⟨seq, l⟩ s
  have books := bookkept_reorder now (ordered k) ⟨seq, l⟩
  unfold World.reorderPacket
  simp only at owns ⊢
  generalize (Rod.mtlkReorderPacket now (unlogged (w.rod k)) ⟨seq, l⟩).1 = q
    at owns books ⊢
  have updated := spends_update known (unlogged q) fun used =>
    ⟨(books used).window, (books used).count, (books used).beyond, (books used).slot⟩
  have dropped := updated.trans (.foldl (fun w d => w.freeSubFrames d.packet.nbuf)
    (fun d => ownsAll d.packet.nbuf) (fun w d => spends_freeSubFrames _ w) q.drops _) fun s => rfl
  refine dropped.trans (.foldl (fun w d => w.detectReplayOrSendup env c d.packet.nbuf)
    (fun d => ownsAll d.packet.nbuf) (fun w d => spends_detectReplayOrSendup env c _ w) q.sentUp _)
    ?_
  intro s
  have held : ownsHeld ((unlogged q).held) s =
    ownsHeld q.held s := rfl
  have owns := owns s
  rw [held]
  omega

end Wave300.Recv
