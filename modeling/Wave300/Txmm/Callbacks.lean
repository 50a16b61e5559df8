import Wave300.Txmm.Partition

/-!
# Cancelled messages and their callbacks

What the steps of a careful run do to the log, to the calls in progress and to the free
blocks; from it, that a cancelled block stays free until it is attached again, and that a
callback is run only for the message its block was unlinked for.
-/

namespace Wave300.Txmm

open Wave300.Lib

variable {n : Nat} {μ σ κ ν : Type} {s s' s'' : Base n μ σ κ ν} {b : Fin n} {q : Que} {m : μ}

/-- The events that say nothing about who has a block. -/
def Event.Quiet : Event n μ σ ν → Prop
  | .bound .. | .msgSend .. | .msgTimedOut _ => True
  | _ => False

def KeepsFree (s s' : Base n μ σ κ ν) : Prop :=
  ∀ c, s.rings.home c = some .free → s'.rings.home c = some .free

theorem keepsFree_of_update {x : Option Que} (alive : s.rings.home b ≠ some .free)
    (home : s'.rings.home = Function.update s.rings.home b x) : KeepsFree s s' := by
  intro c free
  have ne : c ≠ b := by
    rintro rfl
    exact alive free
  rw [home, Function.update_of_ne ne, free]

/-- A step that concerns no message's hold on its block. -/
structure Unheard (s s' : Base n μ σ κ ν) : Prop where
  log : ∃ new, s'.log = s.log ++ new ∧ ∀ e ∈ new, e.Quiet
  pending : s'.pending = s.pending
  free : KeepsFree s s'

theorem Unheard.silent (log : s'.log = s.log) (pending : s'.pending = s.pending)
    (free : KeepsFree s s') : Unheard s s' := by
  refine ⟨⟨[], ?_, ?_⟩, pending, free⟩
  · rw [log, List.append_nil]
  · intro e mem
    cases mem

theorem Unheard.refl (s : Base n μ σ κ ν) : Unheard s s :=
  .silent rfl rfl fun _ free => free

theorem Unheard.trans (h : Unheard s s') (h' : Unheard s' s'') : Unheard s s'' := by
  obtain ⟨new, log, quiet⟩ := h.log
  obtain ⟨new', log', quiet'⟩ := h'.log
  refine ⟨⟨new ++ new', ?_, ?_⟩, h'.pending.trans h.pending, ?_⟩
  · rw [log', log, List.append_assoc]
  · intro e mem
    obtain mem | mem := List.mem_append.1 mem
    · exact quiet e mem
    · exact quiet' e mem
  · intro c free
    exact h'.free c (h.free c free)

/-- What a step of a careful run does, for a block and its message. -/
inductive Did (s s' : Base n μ σ κ ν) [DecidableEq μ] : Prop where
  | unheard (h : Unheard s s')
  | attach (m : μ) (b : Fin n) (was : s.rings.home b = some .free)
      (log : s'.log = s.log ++ [Event.attached m b]) (pending : s'.pending = s.pending)
      (free : ∀ c, c ≠ b → s.rings.home c = some .free → s'.rings.home c = some .free)
  | unlink (b : Fin n) (reason : ClbReason) (alive : s.rings.home b ≠ some .free)
      (log : ∃ new, s'.log = s.log ++ new ++ [Event.unlinked b (s.blocks b).msg] ∧
        ∀ e ∈ new, e.Quiet)
      (pending : s'.pending = s.pending ++ [⟨b, (s.blocks b).msg, reason⟩])
      (free : KeepsFree s s')
  | call (p : PendingClb n μ) (m : μ) (mem : p ∈ s.pending) (msg : p.msg = some m)
      (log : s'.log = s.log ++ [Event.called p.block m p.reason])
      (pending : s'.pending = s.pending.erase p) (free : KeepsFree s s')
  | cancel (m : μ) (spared : some m ∉ s.pending.map PendingClb.msg)
      (log : s'.log = s.log ++ [Event.cancelled m]) (pending : s'.pending = s.pending)
      (free : KeepsFree s s')

theorem sendBlockPrepare_unheard (alive : s.rings.home b ≠ some .free) (pmsg : σ)
    (vap : Option ν) : Unheard s ((s.sendBlockPrepare b pmsg).emit (.msgSend pmsg vap)) := by
  refine ⟨⟨_, List.append_assoc .., ?_⟩, rfl, keepsFree_of_update alive rfl⟩
  intro e mem
  simp only [List.cons_append, List.nil_append, List.mem_cons, List.not_mem_nil, or_false] at mem
  obtain rfl | rfl := mem <;> trivial

theorem putBuf_unheard (alive : s.rings.home b ≠ some .free) : Unheard s (s.putBuf q b) :=
  .silent rfl rfl (keepsFree_of_update alive rfl)

theorem withPool_unheard (pool : List σ) : Unheard s { s with pool := pool } :=
  .silent rfl rfl fun _ free => free

theorem sendFirst_unheard (h : Sound s) (pmsg : σ) (some : (s.rings.ring .queued).total ≠ 0) :
    Unheard s (s.sendFirst pmsg) := by
  have was := h.home_from some
  rw [Base.sendFirst, getBuf_some some]
  have taken : Unheard s { s with rings := s.rings.take n .queued } :=
    .silent rfl rfl fun _ free => free
  refine taken.trans (sendBlockPrepare_unheard ?_ pmsg _)
  simp only [Rings.take, was, ne_eq, Option.some_inj, reduceCtorEq, not_false_eq_true]

theorem pump_unheard (h : Sound s) (pmsg : Option σ) : Unheard s (s.pump pmsg) := by
  unfold Base.pump
  split
  · rename_i some
    cases pmsg with
    | some p => exact sendFirst_unheard h p some
    | none =>
      cases e : s.pool with
      | nil =>
        simp only [Base.msgGetFromPool, e, List.head?_nil]
        exact withPool_unheard _
      | cons p rest =>
        simp only [Base.msgGetFromPool, e, List.head?_cons]
        exact (withPool_unheard _).trans (sendFirst_unheard (h.withPool _) p some)
  · cases pmsg with
    | some p => exact withPool_unheard _
    | none => exact .refl s

theorem sendEx_unheard (h : Sound s) (obj : ν) (out : s.rings.home b = none)
    (idle : b ∉ s.pending.map PendingClb.block) (req : Request κ) (now : UInt32) :
    Unheard s (s.sendEx obj b req now) := by
  have alive : s.rings.home b ≠ some .free := by
    rw [out]
    decide
  have filled (pool : List σ) (v : Block μ σ κ ν) :
      Unheard s { s with blocks := Function.update s.blocks b v, pool := pool } :=
    .silent rfl rfl fun _ free => free
  unfold Base.sendEx
  cases e : s.pool with
  | nil =>
    simp only [Base.msgGetFromPool, Base.setBlock, e, List.head?_nil]
    exact (filled _ _).trans (putBuf_unheard alive)
  | cons p rest =>
    simp only [Base.msgGetFromPool, Base.setBlock, e, List.head?_cons]
    split
    · refine (filled _ _).trans (sendBlockPrepare_unheard ?_ _ _)
      exact alive
    · refine (filled _ _).trans ((putBuf_unheard ?_).trans (pump_unheard ?_ _))
      · exact alive
      · refine h.move h.seated (Sound.home_update_of_out out) alive idle (by decide) ?_ ?_ rfl
          rfl rfl rfl rfl
        · rfl
        · rfl
    · rename_i taken
      cases taken

theorem scan_unheard (h : Sound s) (now : UInt32) (ne : q ≠ .free) (apart : q ≠ .timedOut)
    (preserveOrder : Bool) : Unheard s (s.scan now q preserveOrder) := by
  refine (Sound.scan now preserveOrder ne apart ?_ h (Unheard.refl s)).2
  intro s₁ b h₁ so_far home _
  refine so_far.trans (.silent rfl rfl (keepsFree_of_update ?_ (h₁.expire_home home _)))
  rw [home, ne_eq, Option.some_inj]
  exact ne

theorem unlink_did [DecidableEq μ] (h : Sound s) (was : s.rings.home b = some q)
    (ne : q ≠ .free) {reason : ClbReason} {preserveOrder : Bool} (new : List (Event n μ σ ν))
    (rings : s'.rings = s.rings.unlink n q b preserveOrder)
    (log : s'.log = s.log ++ new ++ [Event.unlinked b (s.blocks b).msg])
    (quiet : ∀ e ∈ new, e.Quiet)
    (pending : s'.pending = s.pending ++ [⟨b, (s.blocks b).msg, reason⟩]) : Did s s' := by
  have alive : s.rings.home b ≠ some .free := by
    rw [was, Ne, Option.some_inj]
    exact ne
  refine .unlink b reason alive ⟨new, log, quiet⟩ pending
    (keepsFree_of_update (x := none) alive ?_)
  rw [rings, Rings.unlink_home preserveOrder (h.seated.seat b q was).2]

section
variable [DecidableEq μ]

theorem drain_did (h : Sound s) (reason : ClbReason) : Did s (s.drain reason) := by
  unfold Base.drain
  simp only
  split
  · rename_i some
    refine unlink_did h (h.home_from some) (by decide) [.msgTimedOut _] rfl rfl ?_ rfl
    intro e mem
    obtain rfl := List.mem_singleton.1 mem
    trivial
  · exact .unheard (.refl s)

theorem onCfm_did [DecidableEq σ] (h : Sound s) (pmsg : σ) : Did s (s.onCfm pmsg) := by
  unfold Base.onCfm
  split
  · rename_i some
    split
    · rename_i b found
      have sent := (findSent_holds h ((h.seated.valid .sent).holds_from some) found).1
      refine unlink_did h sent (by decide) [] rfl ?_ (by simp) rfl
      rw [List.append_nil]
      rfl
    · exact .unheard (.refl s)
  · exact .unheard (.refl s)

theorem getEmptyData_did (h : Sound s) (m : μ) (obj : ν) : Did s (s.getEmptyData m obj) := by
  unfold Base.getEmptyData
  split
  · unfold Base.attachData
    split
    · by_cases some : (s.rings.ring .free).total = 0
      · rw [getBuf_none some]
        exact .unheard (.silent rfl rfl fun _ free => free)
      · have was := h.home_from some
        rw [getBuf_some some]
        refine .attach m _ was rfl rfl ?_
        intro c ne free
        exact (Function.update_of_ne ne _ _).trans free
    · exact .unheard (.refl s)
  · exact .unheard (.refl s)

theorem callUsrClb_did (h : Sound s) {p : PendingClb n μ} (mem : p ∈ s.pending)
    (action : ClbAction) (now : UInt32) :
    Did s ((s.settle p).callUsrClbLocked p.block p.reason action now) := by
  obtain ⟨out, clb, same⟩ := h.owned.waiting p mem
  have alive : s.rings.home p.block ≠ some .free := by
    rw [out]
    decide
  obtain ⟨m, msg, data⟩ := h.owned.msg p.block alive
  rw [callUsrClbLocked_eq (s := s.settle p) msg data clb]
  cases action with
  | free =>
    have freed :=
      freeBuf_freed ((s.settle p).emit (.called p.block m p.reason)) p.block false false
    refine .call p m mem (same.symm.trans msg) freed.log freed.pending ?_
    intro c free
    have ne : c ≠ p.block := by
      rintro rfl
      exact alive free
    exact (freed.others c ne).1.trans free
  | send =>
    exact .call p m mem (same.symm.trans msg) rfl rfl (keepsFree_of_update alive rfl)
  | keep => exact .call p m mem (same.symm.trans msg) rfl rfl fun _ free => free

theorem msgCancel_did (h : Sound s) (m : μ) (spared : some m ∉ s.pending.map PendingClb.msg) :
    Did s (s.msgCancel m) := by
  unfold Base.msgCancel
  split
  · rename_i obj b _ data
    have freed := free_freed s b
    have cancelled : (s.free b).log ++ [Event.cancelled m] = s.log ++ [Event.cancelled m] := by
      rw [freed.log]
    refine .cancel m spared cancelled freed.pending ?_
    intro c free
    have ne : c ≠ b := by
      rintro rfl
      exact h.not_free_of_data data free
    exact (freed.others c ne).1.trans free
  · exact .cancel m spared rfl rfl fun _ free => free

theorem step_did [DecidableEq σ] (h : Sound s) (op : Op n μ σ κ ν) (careful : op.Careful s) :
    Did s (step s op) := by
  cases op with
  | start => exact .unheard (.silent rfl rfl fun _ free => free)
  | halt => exact .unheard (.silent rfl rfl fun _ free => free)
  | getEmptyData m obj => exact getEmptyData_did h m obj
  | msgSend m req now =>
    obtain ⟨⟨b, data, out⟩, spared⟩ := careful.inTurn
    simp only [step, Base.msgSend, data]
    cases obj : (s.msgs m).obj with
    | none =>
      rw [(h.owned.obj m).1 obj] at data
      cases data
    | some obj' => exact .unheard (sendEx_unheard h obj' out (h.idle data spared) req now)
  | pump pmsg => exact .unheard (pump_unheard h pmsg)
  | onCfm pmsg => exact onCfm_did h pmsg
  | scanSent now => exact .unheard (scan_unheard h now (by decide) (by decide) false)
  | scanQueued now => exact .unheard (scan_unheard h now (by decide) (by decide) true)
  | drain reason => exact drain_did h reason
  | callUsrClb p action now =>
    simp only [step]
    split
    · rename_i mem
      exact callUsrClb_did h mem action now
    · exact .unheard (.refl s)
  | msgCancel m => exact msgCancel_did h m careful.sparesPending

end

/-- `b` is among the free blocks and in no other queue. -/
structure OnlyFree (s : Base n μ σ κ ν) (b : Fin n) : Prop where
  free : s.InRing .free b
  others : ∀ q, s.InRing q b → q = .free

theorem Sound.onlyFree (h : Sound s) (free : s.rings.home b = some .free) : OnlyFree s b := by
  constructor
  · exact (inRing_iff h.seated).2 free
  · intro q inside
    have home := (inRing_iff h.seated).1 inside
    rw [free, Option.some_inj] at home
    exact home.symm

theorem Did.keepsFree [DecidableEq μ] (did : Did s s') :
    ∃ new, s'.log = s.log ++ new ∧ ∀ b, s.rings.home b = some .free →
      (∀ m, .attached m b ∉ new) → s'.rings.home b = some .free := by
  cases did with
  | unheard h =>
    obtain ⟨new, log, -⟩ := h.log
    exact ⟨new, log, fun b free _ => h.free b free⟩
  | attach m c was log pending others =>
    refine ⟨_, log, fun b free never => others b ?_ free⟩
    rintro rfl
    exact never m (List.mem_singleton_self _)
  | unlink c reason alive log pending others =>
    obtain ⟨new, log, -⟩ := log
    exact ⟨_, log.trans (List.append_assoc ..), fun b free _ => others b free⟩
  | call p m mem msg log pending others => exact ⟨_, log, fun b free _ => others b free⟩
  | cancel m spared log pending others => exact ⟨_, log, fun b free _ => others b free⟩

section
variable [DecidableEq μ]

theorem msgCancel_home (h : Sound s) (data : (s.msgs m).data = some b) :
    (s.msgCancel m).rings.home b = some .free := by
  cases obj : (s.msgs m).obj with
  | none =>
    rw [(h.owned.obj m).1 obj] at data
    cases data
  | some obj' =>
    simp only [Base.msgCancel, obj, data]
    exact (free_freed s b).home

variable [DecidableEq σ]

/-- A free block stays free until the log says that it was attached. -/
theorem run_keepsFree {t : Base n μ σ κ ν} (h : Sound s) (free : s.rings.home b = some .free)
    (run : Runs step Op.Careful s t) :
    Sound t ∧ ∃ new, t.log = s.log ++ new ∧
      ((∀ m, .attached m b ∉ new) → t.rings.home b = some .free) := by
  induction run with
  | start => exact ⟨h, [], (List.append_nil _).symm, fun _ => free⟩
  | step op _ careful ih =>
    obtain ⟨sound, new, log, stays⟩ := ih
    obtain ⟨new', log', stays'⟩ := (step_did sound op careful).keepsFree
    refine ⟨sound.step op careful, new ++ new', ?_, ?_⟩
    · rw [log', log, List.append_assoc]
    · intro never
      refine stays' b (stays fun m mem => ?_) fun m mem => ?_
      · exact never m (List.mem_append_left _ mem)
      · exact never m (List.mem_append_right _ mem)

/-- In every run in which no message is cancelled while its block waits to be drained or
while a call has its block, a cancel puts the block among the free ones and into no other
queue, and there it stays until it is attached again. -/
theorem cancelled_block_stays_free [NeZero n] {maxPayloadSize : UInt16} {pool : List σ}
    (run : Runs step Op.Careful (Base.init n maxPayloadSize pool) s)
    (data : (s.msgs m).data = some b) (careful : (Op.msgCancel m).Careful s) :
    OnlyFree (step s (.msgCancel m)) b ∧
      ∀ t new, Runs step Op.Careful (step s (.msgCancel m)) t →
        t.log = (step s (.msgCancel m)).log ++ new → (∀ m', .attached m' b ∉ new) →
          OnlyFree t b := by
  have sound := run_sound run
  have free : (step s (.msgCancel m)).rings.home b = some .free := msgCancel_home sound data
  have sound' := sound.step _ careful
  refine ⟨sound'.onlyFree free, ?_⟩
  intro t new later log never
  obtain ⟨sound'', new', log', stays⟩ := run_keepsFree sound' free later
  obtain rfl := List.append_cancel_left (log.symm.trans log')
  exact sound''.onlyFree (stays never)

end

/-- A message is cancelled while it is at the hardware. -/
theorem cancelled_block_stays_free_when_sent :
    OnlyFree ([.start, .getEmptyData 1 (), .msgSend 1 ⟨5, 10, (), 0⟩ 0, .msgCancel 1].foldl step
      (Base.init 2 64 [7] : Base 2 Nat Nat Unit Unit)) 0 := by
  have run : Runs step Op.Careful (Base.init 2 64 [7] : Base 2 Nat Nat Unit Unit)
      ([.start, .getEmptyData 1 (), .msgSend 1 ⟨5, 10, (), 0⟩ 0].foldl step
        (Base.init 2 64 [7])) := by
    refine Runs.of_allowed ⟨⟨trivial, trivial, trivial⟩, ⟨trivial, trivial, trivial⟩,
      ⟨⟨⟨0, ?_⟩, ?_⟩, trivial, trivial⟩, trivial⟩ <;> decide
  refine (cancelled_block_stays_free (m := 1) run (by decide) ⟨trivial, ?_, ?_⟩).1
  · simp only [Op.SparesTimedOut]
    decide
  · simp only [Op.SparesPending]
    decide

/-- A message is cancelled between the scan and the drain of the timer: its block is free
and waits to be drained. -/
theorem cancel_between_scan_and_drain :
    ∃ s : Base 2 Nat Nat Unit Unit, Runs step (fun s op => op.InTurn s) (Base.init 2 64 [7]) s ∧
      (s.msgs 1).data = some 0 ∧ ¬OnlyFree (step s (.msgCancel 1)) 0 := by
  refine ⟨_, Runs.of_allowed (l := [.start, .getEmptyData 1 (), .msgSend 1 ⟨5, 10, (), 20⟩ 0,
    .scanSent 100]) ?_, ?_, ?_⟩
  · refine ⟨trivial, trivial, ⟨⟨0, ?_⟩, ?_⟩, trivial, trivial⟩ <;> decide
  · decide
  · intro only
    cases only.others .timedOut ⟨0, ⟨by decide, by decide⟩, by decide⟩

/-- The log says that `b` was unlinked for `m`, and that since then `m` was not cancelled
and `b` not attached to a message. -/
def Since (log : List (Event n μ σ ν)) (b : Fin n) (m : μ) : Prop :=
  ∃ pre post, log = pre ++ Event.unlinked b (some m) :: post ∧ Event.cancelled m ∉ post ∧
    ∀ m', Event.attached m' b ∉ post

/-- Every callback was run for the message its block was unlinked for. -/
def CallsFollow (log : List (Event n μ σ ν)) : Prop :=
  ∀ k b m reason, log[k]? = some (.called b m reason) → Since (log.take k) b m

theorem Since.append {log new : List (Event n μ σ ν)} (h : Since log b m)
    (spared : .cancelled m ∉ new) (never : ∀ m', .attached m' b ∉ new) :
    Since (log ++ new) b m := by
  obtain ⟨pre, post, rfl, spared', never'⟩ := h
  refine ⟨pre, post ++ new, ?_, ?_, ?_⟩
  · rw [List.append_assoc, List.cons_append]
  · intro mem
    obtain mem | mem := List.mem_append.1 mem
    · exact spared' mem
    · exact spared mem
  · intro m' mem
    obtain mem | mem := List.mem_append.1 mem
    · exact never' m' mem
    · exact never m' mem

theorem CallsFollow.append {log new : List (Event n μ σ ν)} (h : CallsFollow log)
    (next : ∀ k b m reason, new[k]? = some (.called b m reason) →
      Since (log ++ new.take k) b m) : CallsFollow (log ++ new) := by
  intro k b m reason at_k
  by_cases lt : k < log.length
  · rw [List.getElem?_append_left lt] at at_k
    rw [List.take_append_of_le_length (Nat.le_of_lt lt)]
    exact h k b m reason at_k
  · have le := Nat.le_of_not_lt lt
    rw [List.getElem?_append_right le] at at_k
    rw [List.take_append, List.take_of_length_le le]
    exact next _ b m reason at_k

/-- A step that runs no callback. -/
theorem CallsFollow.append_of_not_mem {log new : List (Event n μ σ ν)} (h : CallsFollow log)
    (none : ∀ b m reason, .called b m reason ∉ new) : CallsFollow (log ++ new) :=
  h.append fun _ b m reason at_k => absurd (List.mem_of_getElem? at_k) (none b m reason)

/-- The calls in progress find the message they unlinked their block for, and every
callback was run for that message and before it was cancelled. -/
structure ClbSound (s : Base n μ σ κ ν) : Prop where
  found : ∀ p ∈ s.pending, ∃ m, p.msg = some m ∧ (s.blocks p.block).msg = some m
  called : CallsFollow s.log
  fault : s.fault = false

/-- What the log says of the calls in progress. -/
structure Heard (s : Base n μ σ κ ν) : Prop where
  called : CallsFollow s.log
  since : ∀ p ∈ s.pending, ∃ m, p.msg = some m ∧ Since s.log p.block m

theorem Heard.append {new : List (Event n μ σ ν)} (h : Heard s) (log : s'.log = s.log ++ new)
    (pending : ∀ p ∈ s'.pending, p ∈ s.pending) (uncalled : ∀ b m reason, .called b m reason ∉ new)
    (spared : ∀ p ∈ s'.pending, ∀ m, p.msg = some m → .cancelled m ∉ new)
    (never : ∀ p ∈ s'.pending, ∀ m, .attached m p.block ∉ new) : Heard s' := by
  constructor
  · rw [log]
    exact h.called.append_of_not_mem uncalled
  · intro p mem
    obtain ⟨m, msg, since⟩ := h.since p (pending p mem)
    refine ⟨m, msg, ?_⟩
    rw [log]
    exact since.append (spared p mem m msg) (never p mem)

theorem Heard.did [DecidableEq μ] (sound : Sound s) (h : Heard s) (did : Did s s') :
    Heard s' := by
  cases did with
  | unheard u =>
    obtain ⟨new, log, quiet⟩ := u.log
    refine h.append log (fun p mem => u.pending ▸ mem) ?_ ?_ ?_
    · exact fun b m reason mem => quiet _ mem
    · exact fun p _ m _ mem => quiet _ mem
    · exact fun p _ m mem => quiet _ mem
  | attach m b was log pending free =>
    refine h.append log (fun p mem => pending ▸ mem) (by simp) (by simp) ?_
    intro p mem m' mem'
    obtain ⟨-, rfl⟩ := Event.attached.inj (List.mem_singleton.1 mem')
    rw [pending] at mem
    rw [(sound.owned.waiting p mem).1] at was
    cases was
  | unlink b reason alive log pending free =>
    obtain ⟨new, log, quiet⟩ := log
    obtain ⟨m, msg, -⟩ := sound.owned.msg b alive
    rw [msg] at log pending
    have silent {e : Event n μ σ ν} (loud : ¬e.Quiet) (other : e ≠ .unlinked b (some m)) :
        e ∉ new ++ [Event.unlinked b (some m)] := by
      intro mem
      obtain mem | mem := List.mem_append.1 mem
      · exact loud (quiet e mem)
      · exact other (List.mem_singleton.1 mem)
    rw [List.append_assoc] at log
    constructor
    · rw [log]
      exact h.called.append_of_not_mem fun c m' r => silent id (by simp)
    · intro p mem
      rw [pending] at mem
      rw [log]
      obtain mem | mem := List.mem_append.1 mem
      · obtain ⟨m', msg', since⟩ := h.since p mem
        exact ⟨m', msg', since.append (silent id (by simp)) fun m'' => silent id (by simp)⟩
      · obtain rfl := List.mem_singleton.1 mem
        refine ⟨m, rfl, s.log ++ new, [], ?_, by simp, by simp⟩
        rw [List.append_assoc]
  | call p m mem msg log pending free =>
    obtain ⟨m', msg', since⟩ := h.since p mem
    obtain rfl := Option.some_inj.1 (msg.symm.trans msg')
    constructor
    · rw [log]
      apply h.called.append
      intro k c m' r at_k
      obtain ⟨rfl, rfl, rfl, -⟩ : p.block = c ∧ m = m' ∧ k = 0 ∧ p.reason = r := by
        simpa using List.getElem?_eq_some_iff.1 at_k
      simpa using since
    · intro p' mem'
      rw [pending] at mem'
      obtain ⟨m', msg', since'⟩ := h.since p' (List.mem_of_mem_erase mem')
      refine ⟨m', msg', ?_⟩
      rw [log]
      exact since'.append (by simp) (by simp)
  | cancel m spared log pending free =>
    refine h.append log (fun p mem => pending ▸ mem) (by simp) ?_ (by simp)
    intro p mem m' msg mem'
    obtain rfl := Event.cancelled.inj (List.mem_singleton.1 mem')
    rw [pending] at mem
    exact spared (msg ▸ List.mem_map_of_mem mem)

theorem init_heard [NeZero n] (maxPayloadSize : UInt16) (pool : List σ) :
    Heard (Base.init n maxPayloadSize pool : Base n μ σ κ ν) := by
  constructor
  · intro k b m reason at_k
    cases at_k
  · intro p mem
    cases mem

/-- In every run in which no message is cancelled while a call has its block (nor while the
block waits to be drained), whatever else is done between the two sections of the call, it
finds the message it unlinked the block for and runs the callback for no other message and
for none that was cancelled. -/
theorem callback_for_unlinked_message [NeZero n] [DecidableEq μ] [DecidableEq σ]
    {maxPayloadSize : UInt16} {pool : List σ}
    (run : Runs step Op.Careful (Base.init n maxPayloadSize pool) s) : ClbSound s := by
  have both : Sound s ∧ Heard s := by
    refine run.invariant (P := fun s => Sound s ∧ Heard s) ?_ ?_
    · exact ⟨init_sound maxPayloadSize pool, init_heard maxPayloadSize pool⟩
    · rintro s op ⟨sound, heard⟩ careful
      exact ⟨sound.step op careful, heard.did sound (step_did sound op careful)⟩
  obtain ⟨sound, heard⟩ := both
  refine ⟨?_, heard.called, sound.fault⟩
  intro p mem
  obtain ⟨m, msg, -⟩ := heard.since p mem
  exact ⟨m, msg, (sound.owned.waiting p mem).2.2.trans msg⟩

/-- Another message is attached between the two sections of a confirmation. -/
theorem callback_for_unlinked_message_confirmed :
    ClbSound ([.start, .getEmptyData 1 (), .msgSend 1 ⟨5, 10, (), 0⟩ 0, .onCfm 7,
      .getEmptyData 2 (), .callUsrClb ⟨0, some 1, .confirmed⟩ .free 0].foldl step
        (Base.init 2 64 [7] : Base 2 Nat Nat Unit Unit)) := by
  refine callback_for_unlinked_message (Runs.of_allowed ?_)
  refine ⟨⟨trivial, trivial, trivial⟩, ⟨trivial, trivial, trivial⟩,
    ⟨⟨⟨0, ?_⟩, ?_⟩, trivial, trivial⟩, ⟨trivial, trivial, trivial⟩, ⟨trivial, trivial, trivial⟩,
    ⟨trivial, trivial, trivial⟩, trivial⟩ <;> decide

/-- The block of a confirmed message is attached to another message, that is sent, before
the callback of the first is run: the callback of the second is run in its place. -/
theorem callback_of_another_message :
    ∃ s : Base 1 Nat Nat Unit Unit, Runs step (fun s op => op.InTurn s) (Base.init 1 64 [7, 8]) s ∧
      ¬ClbSound s := by
  refine ⟨_, Runs.of_allowed (l := [.start, .getEmptyData 1 (), .msgSend 1 ⟨5, 10, (), 0⟩ 0,
    .onCfm 7, .msgCancel 1, .getEmptyData 2 (), .msgSend 2 ⟨6, 10, (), 0⟩ 0,
    .callUsrClb ⟨0, some 1, .confirmed⟩ .free 0]) ?_, ?_⟩
  · refine ⟨trivial, trivial, ⟨⟨0, ?_⟩, ?_⟩, trivial, trivial, trivial, ⟨⟨0, ?_⟩, ?_⟩, trivial,
      trivial⟩ <;> decide
  · intro h
    obtain ⟨pre, post, log, -⟩ := h.called 8 0 2 .confirmed (by decide)
    have mem := log ▸ List.mem_append_right pre (List.mem_cons_self ..)
    revert mem
    decide

end Wave300.Txmm
