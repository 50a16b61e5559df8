import Wave300.Lib.Trace
import Wave300.Txmm.Base

/-!
# Every block is in one place

The invariant that the critical sections keep as long as no message is cancelled while its
block is between two sections of the call that has it: each block is in the queue its
records name, and belongs to the one message that refers to it.
-/

namespace Wave300.Txmm

open Wave300.Lib

variable {n : Nat} {μ σ κ ν : Type} {s s' : Base n μ σ κ ν} {b : Fin n} {q : Que} {m : μ}

/-- Blocks and messages refer to each other, whatever is queued has a callback, and the
calls in progress have a block each. -/
structure Owned (home : Fin n → Option Que) (blocks : Fin n → Block μ σ κ ν)
    (msgs : μ → Msg n ν) (pending : List (PendingClb n μ)) : Prop where
  data : ∀ m b, (msgs m).data = some b → (blocks b).msg = some m ∧ home b ≠ some .free
  msg : ∀ b, home b ≠ some .free → ∃ m, (blocks b).msg = some m ∧ (msgs m).data = some b
  obj : ∀ m, (msgs m).obj = none ↔ (msgs m).data = none
  clb : ∀ b q, home b = some q → q ≠ .free → (blocks b).clb.isSome
  waiting : ∀ p ∈ pending, home p.block = none ∧ (blocks p.block).clb.isSome ∧
    (blocks p.block).msg = p.msg
  once : (pending.map PendingClb.block).Nodup

structure Sound (s : Base n μ σ κ ν) : Prop where
  seated : s.rings.Seated n
  owned : Owned s.rings.home s.blocks s.msgs s.pending
  fault : s.fault = false

namespace Owned
variable {home : Fin n → Option Que} {blocks : Fin n → Block μ σ κ ν} {msgs : μ → Msg n ν}
  {pending : List (PendingClb n μ)}

theorem move (h : Owned home blocks msgs pending) (alive : home b ≠ some .free)
    (idle : b ∉ pending.map PendingClb.block) (ne : q ≠ .free) {v : Block μ σ κ ν}
    (msg : v.msg = (blocks b).msg) (clb : v.clb.isSome) :
    Owned (Function.update home b (some q)) (Function.update blocks b v) msgs pending := by
  have kept (c : Fin n) : (Function.update blocks b v c).msg = (blocks c).msg := by
    by_cases e : c = b
    · subst e
      rw [Function.update_self, msg]
    · rw [Function.update_of_ne e]
  have free_iff (c : Fin n) : Function.update home b (some q) c ≠ some .free ↔
      home c ≠ some .free := by
    by_cases e : c = b
    · subst e
      simp only [Function.update_self, ne_eq, Option.some_inj, ne, alive, not_false_eq_true]
    · rw [Function.update_of_ne e]
  constructor
  case data =>
    intro m c data
    rw [kept, free_iff]
    exact h.data m c data
  case msg =>
    intro c away
    rw [free_iff] at away
    simpa only [kept] using h.msg c away
  case obj => exact h.obj
  case clb =>
    intro c q' home' ne'
    by_cases e : c = b
    · subst e
      rwa [Function.update_self]
    · rw [Function.update_of_ne e] at home' ⊢
      exact h.clb c q' home' ne'
  case waiting =>
    intro p mem
    have e : p.block ≠ b := by
      rintro rfl
      exact idle (List.mem_map_of_mem mem)
    rw [Function.update_of_ne e, Function.update_of_ne e]
    exact h.waiting p mem
  case once => exact h.once

theorem defer (h : Owned home blocks msgs pending) (was : home b = some q) (ne : q ≠ .free)
    (reason : ClbReason) : Owned (Function.update home b none) blocks msgs
      (pending ++ [⟨b, (blocks b).msg, reason⟩]) := by
  have free_iff (c : Fin n) : Function.update home b none c ≠ some .free ↔
      home c ≠ some .free := by
    by_cases e : c = b
    · subst e
      simp only [Function.update_self, was, ne_eq, reduceCtorEq, Option.some_inj, ne,
        not_false_eq_true]
    · rw [Function.update_of_ne e]
  have apart : ∀ p ∈ pending, p.block ≠ b := by
    rintro p mem rfl
    rw [(h.waiting p mem).1] at was
    cases was
  constructor
  case data =>
    intro m c data
    rw [free_iff]
    exact h.data m c data
  case msg =>
    intro c away
    exact h.msg c ((free_iff c).1 away)
  case obj => exact h.obj
  case clb =>
    intro c q' home' ne'
    by_cases e : c = b
    · subst e
      rw [Function.update_self] at home'
      cases home'
    · rw [Function.update_of_ne e] at home'
      exact h.clb c q' home' ne'
  case waiting =>
    intro p mem
    obtain mem | mem := List.mem_append.1 mem
    · rw [Function.update_of_ne (apart p mem)]
      exact h.waiting p mem
    · obtain rfl := List.mem_singleton.1 mem
      exact ⟨Function.update_self .., h.clb b q was ne, rfl⟩
  case once =>
    rw [List.map_append, List.nodup_append]
    refine ⟨h.once, List.nodup_singleton b, ?_⟩
    intro c mem c' mem'
    obtain ⟨p, pending_p, rfl⟩ := List.mem_map.1 mem
    obtain rfl := List.mem_singleton.1 mem'
    exact apart p pending_p

theorem attach [DecidableEq μ] (h : Owned home blocks msgs pending) (was : home b = some .free)
    (fresh : (msgs m).data = none) (obj : ν) :
    Owned (Function.update home b none)
      (Function.update blocks b { blocks b with msg := some m })
      (Function.update msgs m ⟨some b, some obj⟩) pending := by
  have apart (m' : μ) (c : Fin n) (data : (msgs m').data = some c) : m' ≠ m ∧ c ≠ b := by
    constructor
    · rintro rfl
      rw [fresh] at data
      cases data
    · rintro rfl
      exact (h.data m' c data).2 was
  constructor
  case data =>
    intro m' c data
    by_cases e : m' = m
    · subst e
      rw [Function.update_self, Option.some_inj] at data
      subst data
      simp only [Function.update_self, ne_eq, reduceCtorEq, not_false_eq_true, and_self]
    · rw [Function.update_of_ne e] at data
      have ne := (apart m' c data).2
      rw [Function.update_of_ne ne, Function.update_of_ne ne]
      exact h.data m' c data
  case msg =>
    intro c away
    by_cases e : c = b
    · subst e
      exact ⟨m, by rw [Function.update_self], by rw [Function.update_self]⟩
    · rw [Function.update_of_ne e] at away ⊢
      obtain ⟨m', msg, data⟩ := h.msg c away
      refine ⟨m', msg, ?_⟩
      rw [Function.update_of_ne (apart m' c data).1]
      exact data
  case obj =>
    intro m'
    by_cases e : m' = m
    · subst e
      simp only [Function.update_self, reduceCtorEq]
    · rw [Function.update_of_ne e]
      exact h.obj m'
  case clb =>
    intro c q' home' ne'
    by_cases e : c = b
    · subst e
      rw [Function.update_self] at home'
      cases home'
    · rw [Function.update_of_ne e] at home' ⊢
      exact h.clb c q' home' ne'
  case waiting =>
    intro p mem
    have e : p.block ≠ b := by
      rintro rfl
      rw [(h.waiting p mem).1] at was
      cases was
    rw [Function.update_of_ne e, Function.update_of_ne e]
    exact h.waiting p mem
  case once => exact h.once

theorem release [DecidableEq μ] (h : Owned home blocks msgs pending)
    (owner : (msgs m).data = some b) (idle : b ∉ pending.map PendingClb.block) :
    Owned (Function.update home b (some .free)) (Function.update blocks b {})
      (Function.update msgs m {}) pending := by
  have apart (m' : μ) (c : Fin n) (data : (msgs m').data = some c) (ne : m' ≠ m) : c ≠ b := by
    rintro rfl
    have same := (h.data m' c data).1
    rw [(h.data m c owner).1, Option.some_inj] at same
    exact ne same.symm
  constructor
  case data =>
    intro m' c data
    by_cases e : m' = m
    · subst e
      rw [Function.update_self] at data
      cases data
    · rw [Function.update_of_ne e] at data
      have ne := apart m' c data e
      rw [Function.update_of_ne ne, Function.update_of_ne ne]
      exact h.data m' c data
  case msg =>
    intro c away
    have ne : c ≠ b := by
      rintro rfl
      exact away (Function.update_self ..)
    rw [Function.update_of_ne ne] at away ⊢
    obtain ⟨m', msg, data⟩ := h.msg c away
    refine ⟨m', msg, ?_⟩
    have e : m' ≠ m := by
      rintro rfl
      exact ne (Option.some_inj.1 (data.symm.trans owner))
    rw [Function.update_of_ne e]
    exact data
  case obj =>
    intro m'
    by_cases e : m' = m
    · subst e
      simp only [Function.update_self]
    · rw [Function.update_of_ne e]
      exact h.obj m'
  case clb =>
    intro c q' home' ne'
    by_cases e : c = b
    · subst e
      rw [Function.update_self, Option.some_inj] at home'
      exact absurd home'.symm ne'
    · rw [Function.update_of_ne e] at home' ⊢
      exact h.clb c q' home' ne'
  case waiting =>
    intro p mem
    have e : p.block ≠ b := by
      rintro rfl
      exact idle (List.mem_map_of_mem mem)
    rw [Function.update_of_ne e, Function.update_of_ne e]
    exact h.waiting p mem
  case once => exact h.once

/-- The call that has `p` to run takes it on. -/
theorem settle [DecidableEq μ] {p : PendingClb n μ} (h : Owned home blocks msgs pending)
    (mem : p ∈ pending) :
    Owned home blocks msgs (pending.erase p) ∧
      p.block ∉ (pending.erase p).map PendingClb.block := by
  have nodup : pending.Nodup := h.once.of_map
  refine ⟨⟨h.data, h.msg, h.obj, h.clb, ?_, ?_⟩, ?_⟩
  · intro p' mem'
    exact h.waiting p' (List.mem_of_mem_erase mem')
  · exact h.once.sublist (List.erase_sublist.map _)
  · intro again
    obtain ⟨p', mem', same⟩ := List.mem_map.1 again
    obtain ⟨ne, mem'⟩ := (nodup.mem_erase_iff).1 mem'
    exact ne (List.inj_on_of_nodup_map h.once mem' mem same)

end Owned

namespace Sound

/-- A block out of all queues leaves room in each of them. -/
theorem room {t : Rings Que (Fin n)} (h : t.Seated n) (out : t.home b = none) (q : Que) :
    (t.ring q).total < n :=
  h.room out (Fintype.card_fin n).le q

/-- A block that no call has is put into a queue, from wherever it was. -/
theorem move (h : Sound s) {t : Rings Que (Fin n)} (seated : t.Seated n)
    (home : t.home = Function.update s.rings.home b none) (alive : s.rings.home b ≠ some .free)
    (idle : b ∉ s.pending.map PendingClb.block) (ne : q ≠ .free) {v : Block μ σ κ ν}
    (msg : v.msg = (s.blocks b).msg) (clb : v.clb.isSome) (rings : s'.rings = t.put n q b)
    (blocks : s'.blocks = Function.update s.blocks b v) (msgs : s'.msgs = s.msgs)
    (pending : s'.pending = s.pending) (fault : s'.fault = s.fault) : Sound s' := by
  have out : t.home b = none := by rw [home, Function.update_self]
  constructor
  case seated =>
    rw [rings]
    exact seated.put out (room seated out q)
  case owned =>
    have moved := h.owned.move alive idle ne msg clb
    have home' : s'.rings.home = Function.update s.rings.home b (some q) := by
      simp only [rings, Rings.put, home, Function.update_idem]
    rwa [home', blocks, msgs, pending]
  case fault => exact fault.trans h.fault

/-- A block that no call has goes back to the free ones, and its message lets go of it. -/
theorem release [DecidableEq μ] (h : Sound s) {t : Rings Que (Fin n)} (seated : t.Seated n)
    (home : t.home = Function.update s.rings.home b none) (owner : (s.msgs m).data = some b)
    (idle : b ∉ s.pending.map PendingClb.block) (rings : s'.rings = t.put n .free b)
    (blocks : s'.blocks = Function.update s.blocks b {})
    (msgs : s'.msgs = Function.update s.msgs m {}) (pending : s'.pending = s.pending)
    (fault : s'.fault = s.fault) : Sound s' := by
  have out : t.home b = none := by rw [home, Function.update_self]
  constructor
  case seated =>
    rw [rings]
    exact seated.put out (room seated out .free)
  case owned =>
    have released := h.owned.release owner idle
    have home' : s'.rings.home = Function.update s.rings.home b (some .free) := by
      simp only [rings, Rings.put, home, Function.update_idem]
    rwa [home', blocks, msgs, pending]
  case fault => exact fault.trans h.fault

/-- A call takes a block out of its queue and leaves the lock with it. -/
theorem defer (h : Sound s) (was : s.rings.home b = some q) (ne : q ≠ .free)
    {reason : ClbReason} {preserveOrder : Bool}
    (rings : s'.rings = s.rings.unlink n q b preserveOrder) (blocks : s'.blocks = s.blocks)
    (msgs : s'.msgs = s.msgs)
    (pending : s'.pending = s.pending ++ [⟨b, (s.blocks b).msg, reason⟩])
    (fault : s'.fault = s.fault) : Sound s' := by
  constructor
  case seated =>
    rw [rings]
    exact h.seated.unlink preserveOrder was
  case owned =>
    have deferred := h.owned.defer was ne reason
    have home' : s'.rings.home = Function.update s.rings.home b none := by
      rw [rings, Rings.unlink_home preserveOrder (h.seated.seat b q was).2]
    rwa [home', blocks, msgs, pending]
  case fault => exact fault.trans h.fault

theorem not_free_of_data (h : Sound s) (data : (s.msgs m).data = some b) :
    s.rings.home b ≠ some .free := (h.owned.data m b data).2

/-- A block in a queue is not in the hands of a call. -/
theorem idle_of_home (h : Sound s) (was : s.rings.home b = some q) :
    b ∉ s.pending.map PendingClb.block := by
  intro mem
  obtain ⟨p, pending_p, rfl⟩ := List.mem_map.1 mem
  rw [(h.owned.waiting p pending_p).1] at was
  cases was

theorem idle (h : Sound s) (data : (s.msgs m).data = some b)
    (spared : some m ∉ s.pending.map PendingClb.msg) :
    b ∉ s.pending.map PendingClb.block := by
  intro mem
  obtain ⟨p, pending_p, rfl⟩ := List.mem_map.1 mem
  apply spared
  rw [← (h.owned.data m _ data).1, (h.owned.waiting p pending_p).2.2]
  exact List.mem_map_of_mem pending_p

theorem home_update_of_out (out : s.rings.home b = none) :
    s.rings.home = Function.update s.rings.home b none := by
  rw [← out, Function.update_eq_self]

theorem home_from (h : Sound s) (some : (s.rings.ring q).total ≠ 0) :
    s.rings.home ((s.rings.ring q).ptr (s.rings.ring q).fromIdx) = .some q :=
  (h.seated.held q _ ((h.seated.valid q).holds_from some)).1

end Sound

theorem getBuf_some (some : (s.rings.ring q).total ≠ 0) : s.getBuf q =
    (.some ((s.rings.ring q).ptr (s.rings.ring q).fromIdx),
      { s with rings := s.rings.take n q }) :=
  if_pos some

theorem getBuf_none (none : (s.rings.ring q).total = 0) : s.getBuf q = (.none, s) :=
  if_neg (not_not.2 none)

theorem freeBuf_of_ne (alive : s.rings.home b ≠ some .free) (del preserveOrder : Bool) :
    s.freeBuf b del preserveOrder =
      ((if del then s.delBufFromQue (s.rings.home b) b preserveOrder else s).zeroBlock b).putBuf
        .free b :=
  if_pos alive

theorem freeBuf_of_free (free : s.rings.home b = some .free) (del preserveOrder : Bool) :
    s.freeBuf b del preserveOrder = s :=
  if_neg (not_not.2 free)

/-- What freeing a block leaves as it is. -/
structure Freed (s s' : Base n μ σ κ ν) (b : Fin n) : Prop where
  home : s'.rings.home b = some .free
  others : ∀ c, c ≠ b → s'.rings.home c = s.rings.home c ∧ s'.blocks c = s.blocks c
  msgs : s'.msgs = s.msgs
  pool : s'.pool = s.pool
  pending : s'.pending = s.pending
  log : s'.log = s.log

theorem freeBuf_freed (s : Base n μ σ κ ν) (b : Fin n) (del preserveOrder : Bool) :
    Freed s (s.freeBuf b del preserveOrder) b := by
  unfold Base.freeBuf
  split
  · have same : ∀ c, c ≠ b →
        ((if del then s.delBufFromQue (s.rings.home b) b preserveOrder else s).zeroBlock
          b).rings.home c = s.rings.home c := by
      intro c ne
      cases del with
      | false => rfl
      | true =>
        cases s.rings.home b with
        | none => rfl
        | some q => exact Rings.unlink_home_of_ne preserveOrder ne
    refine ⟨Function.update_self .., ?_, ?_, ?_, ?_, ?_⟩
    · intro c ne
      refine ⟨(Function.update_of_ne ne _ _).trans (same c ne), ?_⟩
      apply (Function.update_of_ne ne _ _).trans
      cases del <;> cases s.rings.home b <;> rfl
    all_goals cases del <;> cases s.rings.home b <;> rfl
  · rename_i free
    exact ⟨not_not.1 free, fun _ _ => ⟨rfl, rfl⟩, rfl, rfl, rfl, rfl⟩

theorem free_freed (s : Base n μ σ κ ν) (b : Fin n) : Freed s (s.free b) b := by
  unfold Base.free
  split
  · rename_i free
    exact ⟨free, fun _ _ => ⟨rfl, rfl⟩, rfl, rfl, rfl, rfl⟩
  all_goals exact freeBuf_freed ..

theorem callUsrClbLocked_eq [DecidableEq μ] (msg : (s.blocks b).msg = some m)
    (data : (s.msgs m).data = some b) (clb : (s.blocks b).clb.isSome) {reason : ClbReason}
    {action : ClbAction} {now : UInt32} : s.callUsrClbLocked b reason action now =
      (s.emit (.called b m reason)).clbAction b m action now := by
  obtain ⟨c, clb⟩ := Option.isSome_iff_exists.1 clb
  simp only [Base.callUsrClbLocked, msg, data, clb]

namespace Sound

theorem withPool (h : Sound s) (pool : List σ) : Sound { s with pool := pool } :=
  ⟨h.seated, h.owned, h.fault⟩

theorem emit (h : Sound s) (e : Event n μ σ ν) : Sound (s.emit e) :=
  ⟨h.seated, h.owned, h.fault⟩

theorem sendFirst (h : Sound s) (pmsg : σ) (some : (s.rings.ring .queued).total ≠ 0) :
    Sound (s.sendFirst pmsg) := by
  have was := h.home_from some
  rw [Base.sendFirst, getBuf_some some]
  refine h.move (h.seated.take some) rfl ?_ (h.idle_of_home was) (q := .sent) (by decide)
    ?_ ?_ Rings.put_setOut.symm rfl rfl rfl rfl
  · rw [was]
    decide
  · rfl
  · exact h.owned.clb _ _ was (by decide)

theorem pump (h : Sound s) (pmsg : Option σ) : Sound (s.pump pmsg) := by
  unfold Base.pump
  split
  · rename_i some
    cases pmsg with
    | some p => exact h.sendFirst p some
    | none =>
      cases e : s.pool with
      | nil =>
        simp only [Base.msgGetFromPool, e, List.head?_nil]
        exact h.withPool _
      | cons p rest =>
        simp only [Base.msgGetFromPool, e, List.head?_cons]
        exact (h.withPool _).sendFirst p some
  · cases pmsg with
    | some p => exact h.withPool _
    | none => exact h

/-- The user sends the message of a block it holds. -/
theorem sendEx (h : Sound s) (obj : ν) (out : s.rings.home b = none)
    (idle : b ∉ s.pending.map PendingClb.block) (req : Request κ) (now : UInt32) :
    Sound (s.sendEx obj b req now) := by
  have home := home_update_of_out out
  have alive : s.rings.home b ≠ some .free := by
    rw [out]
    decide
  have queue (pool : List σ) (v : Block μ σ κ ν) (msg : v.msg = (s.blocks b).msg)
      (clb : v.clb.isSome) :
      Sound ({ s with blocks := Function.update s.blocks b v, pool := pool }.putBuf .queued b) :=
    h.move h.seated home alive idle (by decide) msg clb rfl rfl rfl rfl rfl
  unfold Base.sendEx
  cases e : s.pool with
  | nil =>
    simp only [Base.msgGetFromPool, Base.setBlock, e, List.head?_nil]
    exact queue _ _ rfl rfl
  | cons p rest =>
    simp only [Base.msgGetFromPool, Base.setBlock, e, List.head?_cons]
    split
    · rename_i direct
      obtain rfl := Option.some_inj.1 direct
      refine h.move h.seated home alive idle (q := .sent) (by decide) ?_ ?_ rfl
        (Function.update_idem ..) rfl rfl rfl
      · simp only [Function.update_self]
      · simp only [Function.update_self, Option.isSome_some]
    · refine Sound.pump ?_ _
      exact queue _ _ rfl rfl
    · rename_i taken
      cases taken

theorem msgSend (h : Sound s) (data : (s.msgs m).data = some b) (out : s.rings.home b = none)
    (idle : b ∉ s.pending.map PendingClb.block) (req : Request κ) (now : UInt32) :
    Sound (s.msgSend m req now) := by
  cases obj : (s.msgs m).obj with
  | none =>
    rw [(h.owned.obj m).1 obj] at data
    cases data
  | some obj' =>
    simp only [Base.msgSend, data, obj]
    exact h.sendEx obj' out idle req now

section
variable [DecidableEq μ]

theorem getEmptyData (h : Sound s) (m : μ) (obj : ν) : Sound (s.getEmptyData m obj) := by
  rw [Base.getEmptyData]
  split
  · rename_i fresh
    have data := (h.owned.obj m).1 fresh
    rw [Base.attachData]
    split
    · by_cases some : (s.rings.ring .free).total = 0
      · have unattached : s.msgs m = {} := by
          rw [show s.msgs m = ⟨(s.msgs m).data, (s.msgs m).obj⟩ from rfl, data, fresh]
        rw [getBuf_none some]
        change Sound (s.setMsg m {})
        rw [Base.setMsg, ← unattached, Function.update_eq_self]
        exact h
      · have was := h.home_from some
        rw [getBuf_some some]
        exact ⟨h.seated.take some, h.owned.attach was data obj, h.fault⟩
    · exact h
  · exact h

end

/-- One block is moved by the timeout scan. -/
theorem expire (h : Sound s) (was : s.rings.home b = some q) (ne : q ≠ .free)
    (preserveOrder : Bool) :
    Sound ((s.delBufFromQue (some q) b preserveOrder).putBuf .timedOut b) := by
  refine h.move (h.seated.unlink preserveOrder was)
    (Rings.unlink_home preserveOrder (h.seated.seat b q was).2) ?_ (h.idle_of_home was)
    (by decide) (v := s.blocks b) rfl (h.owned.clb b q was ne) rfl
    (Function.update_eq_self ..).symm rfl rfl rfl
  rw [was, ne_eq, Option.some_inj]
  exact ne

theorem expire_home (h : Sound s) (was : s.rings.home b = some q) (preserveOrder : Bool) :
    ((s.delBufFromQue (some q) b preserveOrder).putBuf .timedOut b).rings.home =
      Function.update s.rings.home b (some .timedOut) := by
  simp only [Base.putBuf, Base.delBufFromQue, Rings.put,
    Rings.unlink_home preserveOrder (h.seated.seat b q was).2, Function.update_idem]

/-- What holds when the scan begins, and is kept when a block of the queue is found to have
expired, holds at its end. The walk stays in the window although blocks are taken out. -/
theorem scanLoop {P : Base n μ σ κ ν → Prop} (now : UInt32) (preserveOrder : Bool)
    (ne : q ≠ .free) (apart : q ≠ .timedOut)
    (keep : ∀ s b, Sound s → P s → s.rings.home b = some q → Base.Expired now (s.blocks b) →
      P ((s.delBufFromQue (some q) b preserveOrder).putBuf .timedOut b))
    (h : Sound s) (start : P s) (fuel i : Nat)
    (inside : (s.rings.ring q).Holds n i ∨ i = (s.rings.ring q).toIdx) :
    Sound (Base.scanLoop now q preserveOrder fuel i s) ∧
      P (Base.scanLoop now q preserveOrder fuel i s) := by
  induction fuel generalizing s i with
  | zero => exact ⟨h, start⟩
  | succ fuel ih =>
    rw [Base.scanLoop]
    split
    · exact ⟨h, start⟩
    · rename_i more
      have holds := inside.resolve_right more
      obtain ⟨home, idx⟩ := h.seated.held q i holds
      simp only
      split
      · rename_i expired
        apply ih (h.expire home ne preserveOrder) (keep s _ h start home expired) _
        have same : ((s.delBufFromQue (some q) ((s.rings.ring q).ptr i) preserveOrder).putBuf
            .timedOut ((s.rings.ring q).ptr i)).rings.ring q =
            (s.rings.unlink n q ((s.rings.ring q).ptr i) preserveOrder).ring q :=
          Function.update_of_ne apart _ _
        rw [same]
        exact h.seated.walk_unlink preserveOrder home holds
      · exact ih h start _ ((h.seated.valid q).holds_next holds)

theorem scan {P : Base n μ σ κ ν → Prop} (now : UInt32) (preserveOrder : Bool)
    (ne : q ≠ .free) (apart : q ≠ .timedOut)
    (keep : ∀ s b, Sound s → P s → s.rings.home b = some q → Base.Expired now (s.blocks b) →
      P ((s.delBufFromQue (some q) b preserveOrder).putBuf .timedOut b))
    (h : Sound s) (start : P s) :
    Sound (s.scan now q preserveOrder) ∧ P (s.scan now q preserveOrder) := by
  apply scanLoop now preserveOrder ne apart keep h start n _
  by_cases some : (s.rings.ring q).total = 0
  · right
    rw [(h.seated.valid q).to_eq, some, Nat.add_zero, wrap, if_pos (h.seated.valid q).from_lt]
  · exact .inl ((h.seated.valid q).holds_from some)

theorem drain (h : Sound s) (reason : ClbReason) : Sound (s.drain reason) := by
  unfold Base.drain
  simp only
  split
  · rename_i some
    exact h.defer (h.home_from some) (by decide) rfl rfl rfl rfl rfl
  · exact h

end Sound

/-- A block found for a slot is one of the blocks sent. -/
theorem findSent_holds [DecidableEq σ] (h : Sound s) {pmsg : σ} {fuel i : Nat}
    (holds : (s.rings.ring .sent).Holds n i) (found : s.findSent pmsg fuel i = some b) :
    s.rings.home b = some .sent ∧ (s.blocks b).slot = some pmsg := by
  induction fuel generalizing i with
  | zero => cases found
  | succ fuel ih =>
    unfold Base.findSent at found
    simp only at found
    split at found
    · rename_i slot
      obtain rfl := Option.some_inj.1 found
      exact ⟨(h.seated.held .sent i holds).1, slot⟩
    · split at found
      · cases found
      · rename_i more
        exact ih (((h.seated.valid .sent).holds_next holds).resolve_right more) found

namespace Sound

theorem onCfm [DecidableEq σ] (h : Sound s) (pmsg : σ) : Sound (s.onCfm pmsg) := by
  unfold Base.onCfm
  split
  · rename_i some
    split
    · rename_i b found
      have holds := (h.seated.valid .sent).holds_from some
      exact h.defer (findSent_holds h holds found).1 (by decide) rfl rfl rfl rfl rfl
    · exact h
  · exact h

section
variable [DecidableEq μ]

theorem clbAction (h : Sound s) (out : s.rings.home b = none)
    (idle : b ∉ s.pending.map PendingClb.block) (clb : (s.blocks b).clb.isSome)
    (data : (s.msgs m).data = some b) (action : ClbAction) (now : UInt32) :
    Sound (s.clbAction b m action now) := by
  have home := home_update_of_out out
  have alive := h.not_free_of_data data
  cases action with
  | free =>
    rw [Base.clbAction, freeBuf_of_ne alive]
    exact h.release h.seated home data idle rfl rfl rfl rfl rfl
  | send =>
    refine h.move h.seated home alive idle (by decide) ?_ ?_ rfl rfl rfl rfl rfl
    · rfl
    · exact clb
  | keep => exact h

theorem callUsrClb (h : Sound s) {p : PendingClb n μ} (mem : p ∈ s.pending)
    (action : ClbAction) (now : UInt32) :
    Sound ((s.settle p).callUsrClbLocked p.block p.reason action now) := by
  obtain ⟨owned, idle⟩ := h.owned.settle mem
  obtain ⟨out, clb, -⟩ := h.owned.waiting p mem
  obtain ⟨m, msg, data⟩ := h.owned.msg p.block (by rw [out]; decide)
  have settled : Sound (s.settle p) := ⟨h.seated, owned, h.fault⟩
  rw [callUsrClbLocked_eq (s := s.settle p) msg data clb]
  exact (settled.emit _).clbAction out idle clb data action now

theorem msgCancel (h : Sound s) (m : μ)
    (spared : ∀ b, (s.msgs m).data = some b →
      s.rings.home b ≠ some .timedOut ∧ b ∉ s.pending.map PendingClb.block) :
    Sound (s.msgCancel m) := by
  unfold Base.msgCancel
  split
  · rename_i obj b _ data
    obtain ⟨in_time, idle⟩ := spared b data
    have alive := h.not_free_of_data data
    have unlinked (q : Que) (was : s.rings.home b = some q) (preserveOrder : Bool) :
        Sound ((s.freeBuf b true preserveOrder).setMsg m {}) := by
      rw [freeBuf_of_ne alive, was]
      exact h.release (h.seated.unlink preserveOrder was)
        (Rings.unlink_home preserveOrder (h.seated.seat b q was).2) data idle rfl rfl rfl rfl rfl
    refine Sound.emit ?_ _
    cases was : s.rings.home b with
    | none =>
      simp only [Base.free, was]
      rw [freeBuf_of_ne alive]
      exact h.release h.seated (home_update_of_out was) data idle rfl rfl rfl rfl rfl
    | some q =>
      cases q with
      | free => exact absurd was alive
      | queued => simpa only [Base.free, was] using unlinked .queued was true
      | sent => simpa only [Base.free, was] using unlinked .sent was false
      | timedOut => exact absurd was in_time
  · exact h.emit _

end

end Sound

/-- The user sends only a message whose block it holds: one it has attached, and that is
not queued, sent or with a call. -/
def Op.InTurn (s : Base n μ σ κ ν) : Op n μ σ κ ν → Prop
  | .msgSend m _ _ => (∃ b, (s.msgs m).data = some b ∧ s.rings.home b = none) ∧
      some m ∉ s.pending.map PendingClb.msg
  | _ => True

/-- No message is cancelled between the timeout scan and the drain. -/
def Op.SparesTimedOut (s : Base n μ σ κ ν) : Op n μ σ κ ν → Prop
  | .msgCancel m => ∀ b, (s.msgs m).data = some b → s.rings.home b ≠ some .timedOut
  | _ => True

/-- No message is cancelled while a call has unlinked its block and has still to run its
callback. -/
def Op.SparesPending (s : Base n μ σ κ ν) : Op n μ σ κ ν → Prop
  | .msgCancel m => some m ∉ s.pending.map PendingClb.msg
  | _ => True

structure Op.Careful (s : Base n μ σ κ ν) (op : Op n μ σ κ ν) : Prop where
  inTurn : op.InTurn s
  sparesTimedOut : op.SparesTimedOut s
  sparesPending : op.SparesPending s

section
variable [DecidableEq μ] [DecidableEq σ]

theorem Sound.step (h : Sound s) (op : Op n μ σ κ ν) (careful : op.Careful s) :
    Sound (step s op) := by
  cases op with
  | start => exact ⟨h.seated, h.owned, h.fault⟩
  | halt => exact ⟨h.seated, h.owned, h.fault⟩
  | getEmptyData m obj => exact h.getEmptyData m obj
  | msgSend m req now =>
    obtain ⟨⟨b, data, out⟩, spared⟩ := careful.inTurn
    exact h.msgSend data out (h.idle data spared) req now
  | pump pmsg => exact h.pump pmsg
  | onCfm pmsg => exact h.onCfm pmsg
  | scanSent now =>
    exact (Sound.scan (P := fun _ => True) now _ (by decide) (by decide) (by simp) h trivial).1
  | scanQueued now =>
    exact (Sound.scan (P := fun _ => True) now _ (by decide) (by decide) (by simp) h trivial).1
  | drain reason => exact h.drain reason
  | callUsrClb p action now =>
    simp only [Txmm.step]
    split
    · rename_i mem
      exact h.callUsrClb mem action now
    · exact h
  | msgCancel m =>
    apply h.msgCancel m
    intro b data
    exact ⟨careful.sparesTimedOut b data, h.idle data careful.sparesPending⟩

end

theorem init_sound [NeZero n] (maxPayloadSize : UInt16) (pool : List σ) :
    Sound (Base.init n maxPayloadSize pool : Base n μ σ κ ν) := by
  have pos := NeZero.pos n
  refine ⟨⟨?_, ?_, ?_⟩, ⟨?_, ?_, ?_, ?_, ?_, ?_⟩, rfl⟩
  · intro q
    cases q <;> exact ⟨pos, by simp [Base.init], by simp [Base.init, wrap, pos]⟩
  · rintro q i ⟨lt, inside⟩
    cases q with
    | free => exact ⟨rfl, Nat.mod_eq_of_lt lt⟩
    | _ => exact absurd inside (Nat.not_lt_zero _)
  · intro b q home
    obtain rfl := Option.some_inj.1 home
    refine ⟨⟨b.isLt, ?_⟩, Fin.ofNat_val_eq_self b⟩
    exact b.isLt
  · intro m b data
    cases data
  · intro b away
    exact absurd rfl away
  · intro m
    simp only [Base.init]
  · intro b q home ne
    exact absurd (Option.some_inj.1 home).symm ne
  · intro p mem
    cases mem
  · exact List.nodup_nil

/-- `b` is in the window of queue `q`. -/
def Base.InRing (s : Base n μ σ κ ν) (q : Que) (b : Fin n) : Prop :=
  ∃ i, (s.rings.ring q).Holds n i ∧ (s.rings.ring q).ptr i = b

/-- Every block is in one queue, the one it names, or out of all of them. -/
structure Partitioned (s : Base n μ σ κ ν) : Prop where
  place : ∀ b,
    (∃ q, s.rings.home b = some q ∧ s.InRing q b ∧ ∀ q', s.InRing q' b → q' = q) ∨
      (s.rings.home b = none ∧ ∀ q, ¬s.InRing q b)
  window : ∀ q, (s.rings.ring q).Valid n
  distinct : ∀ q i j, (s.rings.ring q).Holds n i → (s.rings.ring q).Holds n j →
    (s.rings.ring q).ptr i = (s.rings.ring q).ptr j → i = j
  records : ∀ q i, (s.rings.ring q).Holds n i → s.rings.home ((s.rings.ring q).ptr i) = some q ∧
    s.rings.idx ((s.rings.ring q).ptr i) = i
  sum : ∑ q, (s.rings.ring q).total +
    (Finset.univ.filter fun b => s.rings.home b = none).card = n

theorem inRing_iff (h : s.rings.Seated n) : s.InRing q b ↔ s.rings.home b = some q := by
  constructor
  · rintro ⟨i, holds, rfl⟩
    exact (h.held q i holds).1
  · intro home
    exact ⟨s.rings.idx b, h.seat b q home⟩

theorem Sound.partitioned (h : Sound s) : Partitioned s := by
  constructor
  case place =>
    intro b
    simp only [inRing_iff h.seated]
    cases home : s.rings.home b with
    | none => exact .inr ⟨rfl, fun q same => nomatch same⟩
    | some q => exact .inl ⟨q, rfl, rfl, fun q' same => (Option.some_inj.1 same).symm⟩
  case window => exact h.seated.valid
  case distinct =>
    intro q i j holds_i holds_j same
    rw [← (h.seated.held q i holds_i).2, ← (h.seated.held q j holds_j).2, same]
  case records => exact h.seated.held
  case sum => rw [h.seated.total_add_out, Fintype.card_fin]

section
variable [DecidableEq μ] [DecidableEq σ] [NeZero n] {maxPayloadSize : UInt16} {pool : List σ}

theorem run_sound (run : Runs step Op.Careful (Base.init n maxPayloadSize pool) s) : Sound s :=
  run.invariant (init_sound maxPayloadSize pool) fun _ op sound careful => sound.step op careful

/-- In every run in which no message is cancelled while its block is with a call that has
still to run its callback (nor while the block waits to be drained), every block is at every
moment in one place. -/
theorem blocks_partitioned (run : Runs step Op.Careful (Base.init n maxPayloadSize pool) s) :
    Partitioned s := (run_sound run).partitioned

end

/-- A second message is sent, and the first is cancelled while it is at the hardware. -/
theorem blocks_partitioned_after_cancel :
    Partitioned ([.start, .getEmptyData 1 (), .msgSend 1 ⟨5, 10, (), 0⟩ 0, .getEmptyData 2 (),
      .msgCancel 1, .msgSend 2 ⟨6, 10, (), 0⟩ 0].foldl step
        (Base.init 2 64 [7] : Base 2 Nat Nat Unit Unit)) := by
  refine blocks_partitioned (Runs.of_allowed ?_)
  refine ⟨⟨trivial, trivial, trivial⟩, ⟨trivial, trivial, trivial⟩,
    ⟨⟨⟨0, ?_⟩, ?_⟩, trivial, trivial⟩, ⟨trivial, trivial, trivial⟩, ⟨trivial, ?_, ?_⟩,
    ⟨⟨⟨1, ?_⟩, ?_⟩, trivial, trivial⟩, trivial⟩
  any_goals decide
  · simp only [Op.SparesTimedOut]
    decide
  · simp only [Op.SparesPending]
    decide

/-- With one block: it is confirmed, cancelled before its callback is run, and sent again
for another message. The callback that is then run frees it while it is at the hardware. -/
theorem cancel_before_callback_splits_block :
    ∃ s : Base 1 Nat Nat Unit Unit,
      Runs step (fun s op => op.InTurn s ∧ op.SparesTimedOut s) (Base.init 1 64 [7, 8]) s ∧
        ¬Partitioned s := by
  refine ⟨_, Runs.of_allowed (l := [.start, .getEmptyData 1 (), .msgSend 1 ⟨5, 10, (), 0⟩ 0,
    .onCfm 7, .msgCancel 1, .getEmptyData 2 (), .msgSend 2 ⟨6, 10, (), 0⟩ 0,
    .callUsrClb ⟨0, some 1, .confirmed⟩ .free 0]) ?_, ?_⟩
  · refine ⟨⟨trivial, trivial⟩, ⟨trivial, trivial⟩, ⟨⟨⟨0, ?_⟩, ?_⟩, trivial⟩,
      ⟨trivial, trivial⟩, ⟨trivial, ?_⟩, ⟨trivial, trivial⟩, ⟨⟨⟨0, ?_⟩, ?_⟩, trivial⟩,
      ⟨trivial, trivial⟩, trivial⟩
    any_goals decide
    simp only [Op.SparesTimedOut]
    decide
  · intro h
    have sum := h.sum
    revert sum
    decide

end Wave300.Txmm
