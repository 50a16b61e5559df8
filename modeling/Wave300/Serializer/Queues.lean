import Wave300.Lib.Slots
import Wave300.Lib.Trace
import Wave300.Serializer.Worker

/-!
# The queues of the serializer

What every interleaving keeps: a command is in the queue of its priority just when it is flagged so,
`tasks_pending_lock` counts the commands in the queues and the serializer itself, the commands of a
priority are taken in the order of their numbers, and the thread exits only when the queues are
empty for good.
-/

namespace Wave300.Serializer

open Wave300.Lib

namespace Stopper

/-- The reference of the serializer itself is not released yet. -/
def holds : Stopper → Bool
  | .none | .release => true
  | _ => false

/-- `tasks_pending_lock` has been waited for. -/
def waited : Stopper → Bool
  | .setStop | .notify | .join | .done => true
  | _ => false

/-- The worker has been told to stop. -/
def raised : Stopper → Bool
  | .notify | .join | .done => true
  | _ => false

end Stopper

variable {κ : Type}

namespace Worker

/-- The command in hand. -/
def cmd : Worker κ → Option κ
  | .run _ c _ | .complete c _ | .wake c _ | .clear c => some c
  | _ => none

/-- The queues from this one on were empty in this pass. -/
def passed : Worker κ → Option Nat
  | .inspect n => some n
  | .run i _ _ => some (i + 1)
  | _ => none

/-- What is taken from the queue `i` and not run yet. -/
def starting (i : Nat) : Worker κ → List Nat
  | .run j _ n => if j = i then [n] else []
  | _ => []

end Worker

namespace Szr

/-- The commands in the queues. -/
def queued (s : Szr κ) : Multiset κ := ((List.range s.numPriorities).flatMap s.queues : List κ)

structure Sound (s : Szr κ) : Prop where
  listed : ∀ i c, c ∈ s.queues i ↔ s.isInQueue c = true ∧ s.priority c = i
  nodup : ∀ i, (s.queues i).Nodup
  below : ∀ c, s.isInQueue c = true → s.priority c < s.numPriorities
  refCnt : s.refCnt = s.queued.card + s.stopper.holds.toNat
  running : s.isRunning = true ↔ s.stopper = .none
  pending : s.pendingEvt = true → s.queued = 0 ∧ s.stopper.holds = false
  waited : s.stopper.waited = true → s.queued = 0
  raised : s.stop = true → s.stopper.raised = true
  exited : s.worker = .exited → s.stopper.raised = true
  done : s.stopper = .done → s.worker = .exited
  current : s.current = s.worker.cmd

variable {s : Szr κ}

theorem mem_queued (s : Szr κ) (c : κ) :
    c ∈ s.queued ↔ ∃ i < s.numPriorities, c ∈ s.queues i := by
  simp [queued]

theorem Sound.lt (h : s.Sound) {i : Nat} {c : κ} (mem : c ∈ s.queues i) : i < s.numPriorities := by
  obtain ⟨flag, rfl⟩ := (h.listed i c).1 mem
  exact h.below c flag

theorem Sound.mem_queued_iff (h : s.Sound) (c : κ) : c ∈ s.queued ↔ s.isInQueue c = true := by
  rw [mem_queued]
  constructor
  · rintro ⟨i, -, mem⟩
    exact ((h.listed i c).1 mem).1
  · intro flag
    exact ⟨s.priority c, h.below c flag, (h.listed _ c).2 ⟨flag, rfl⟩⟩

theorem Sound.queues_eq_nil (h : s.Sound) (none : s.queued = 0) (i : Nat) : s.queues i = [] := by
  apply List.eq_nil_iff_forall_not_mem.2
  intro c mem
  have : c ∈ s.queued := (mem_queued s c).2 ⟨i, h.lt mem, mem⟩
  rw [none] at this
  exact Multiset.notMem_zero c this

theorem init_sound (numPriorities : Nat) : (init numPriorities : Szr κ).Sound where
  listed := by simp [init]
  nodup := by simp [init]
  below := by simp [init]
  refCnt := by simp [init, queued, Stopper.holds]
  running := by simp [init]
  pending := by simp [init]
  waited := by simp [init, queued]
  raised := by simp [init]
  exited := by simp [init, Stopper.raised]
  done := by simp [init]
  current := rfl

theorem Sound.start (h : s.Sound) (done : s.stopper = .done) : s.start.Sound where
  listed := h.listed
  nodup := h.nodup
  below := h.below
  refCnt := by
    have none : s.queued = 0 := h.waited (by rw [done]; rfl)
    change 1 = ((s.queued.card : Int) + 1)
    rw [none]
    rfl
  running := by simp [Szr.start]
  pending := nofun
  waited := nofun
  raised := nofun
  exited := nofun
  done := nofun
  current := by
    have exited := h.done done
    have current := h.current
    rw [exited] at current
    exact current

theorem queued_update {t : Szr κ} {i : Nat} {l : List κ} (lt : i < s.numPriorities)
    (same : t.numPriorities = s.numPriorities) (queues : t.queues = Function.update s.queues i l) :
    t.queued + (s.queues i : Multiset κ) = s.queued + l := by
  rw [queued, queued, same, queues]
  exact Multiset.coe_eq_coe.2
    (flatMap_update_perm List.nodup_range (List.mem_range.2 lt) s.queues l)

theorem Sound.stop (h : s.Sound) (runs : s.stopper = .none) :
    { s with isRunning := false, stopper := .release : Szr κ }.Sound := by
  have cnt := h.refCnt
  rw [runs] at cnt
  exact { h with
    refCnt := cnt
    running := by simp
    pending := fun evt => absurd (h.pending evt).2 (by rw [runs]; nofun)
    waited := nofun
    raised := fun stop => absurd (h.raised stop) (by rw [runs]; nofun)
    exited := fun exited => absurd (h.exited exited) (by rw [runs]; nofun)
    done := nofun }

theorem Sound.release (h : s.Sound) (stopping : s.stopper = .release) :
    { s.rmlockRelease with stopper := .wait }.Sound := by
  have cnt := h.refCnt
  have running := h.running
  rw [stopping] at cnt running
  change s.refCnt = s.queued.card + 1 at cnt
  exact { h with
    refCnt := by
      change s.refCnt - 1 = s.queued.card + 0
      omega
    running := by
      change s.isRunning = true ↔ _
      simpa using running
    pending := by
      intro evt
      refine ⟨?_, rfl⟩
      change (s.pendingEvt || decide (s.refCnt - 1 = 0)) = true at evt
      rw [Bool.or_eq_true] at evt
      rcases evt with evt | zero
      · exact (h.pending evt).1
      · have zero := of_decide_eq_true zero
        have none : s.queued.card = 0 := by omega
        exact Multiset.card_eq_zero.1 none
    waited := nofun
    raised := fun stop => absurd (h.raised stop) (by rw [stopping]; nofun)
    exited := fun exited => absurd (h.exited exited) (by rw [stopping]; nofun)
    done := nofun }

/-- The thread that stops the serializer goes on, with nothing in the queues. -/
theorem Sound.stopTo (h : s.Sound) (none : s.queued = 0) (released : s.stopper.holds = false)
    {t : Stopper} (stays : t.holds = false) {stop newEvent : Bool}
    (raised : stop = true → t.raised = true) (exited : s.worker = .exited → t.raised = true)
    (done : t = .done → s.worker = .exited) :
    { s with stop := stop, newEvent := newEvent, stopper := t : Szr κ }.Sound := by
  have cnt := h.refCnt
  rw [released] at cnt
  exact { h with
    refCnt := by
      change s.refCnt = s.queued.card + t.holds.toNat
      rw [stays]
      exact cnt
    running := by
      constructor
      · intro runs
        rw [h.running.1 runs] at released
        cases released
      · rintro rfl
        cases stays
    pending := fun _ => ⟨none, stays⟩
    waited := fun _ => none
    raised := raised
    exited := exited
    done := done }

/-! ## The order in which commands are taken -/

/-- The numbers of the commands of a priority: those that were run, in the order in which they were,
what is about to be run, and those in the queue. -/
def taken (s : Szr κ) (i : Nat) : List Nat :=
  (s.ran.filter (·.1 = i)).map (·.2) ++ s.worker.starting i ++ (s.queues i).map s.postExec

structure Ordered (s : Szr κ) : Prop where
  ascending : ∀ i, (s.taken i).Pairwise (· < ·)
  below : ∀ i, ∀ n ∈ s.taken i, n < s.numbers

theorem Ordered.of_sublist (h : s.Ordered) {t : Szr κ} (numbers : t.numbers = s.numbers)
    (sub : ∀ i, (t.taken i).Sublist (s.taken i)) : t.Ordered where
  ascending := fun i => (h.ascending i).sublist (sub i)
  below := by
    intro i n mem
    rw [numbers]
    exact h.below i n ((sub i).subset mem)

/-- The worker goes on, and takes or runs nothing. -/
theorem Ordered.idle (h : s.Ordered) {t : Szr κ} (ran : t.ran = s.ran)
    (idle : ∀ i, t.worker.starting i = []) (queues : t.queues = s.queues)
    (postExec : t.postExec = s.postExec) (numbers : t.numbers = s.numbers) : t.Ordered := by
  apply h.of_sublist numbers
  intro i
  rw [taken, taken, ran, idle, queues, postExec]
  apply List.Sublist.append _ (List.Sublist.refl _)
  exact List.Sublist.append (List.Sublist.refl _) (List.nil_sublist _)

/-- What the worker has looked at in this pass: nothing below where it is, and from there on every
queue was empty. -/
structure Passed (s : Szr κ) : Prop where
  above : ∀ n, s.worker = .inspect n → ∀ x ∈ s.inspected, n ≤ x.1
  empty : ∀ n, s.worker.passed = some n → ∀ x ∈ s.inspected, n ≤ x.1 → x.2 = 0
  all : ∀ n, s.worker.passed = some n →
    ∀ j, n ≤ j → j < s.numPriorities → (j, 0) ∈ s.inspected

theorem Passed.of_none (none : s.worker.passed = none) : s.Passed where
  above := by
    intro n at'
    rw [at'] at none
    cases none
  empty := by
    intro n at'
    rw [none] at at'
    cases at'
  all := by
    intro n at'
    rw [none] at at'
    cases at'

theorem startPass_passed (s : Szr κ) : s.startPass.Passed where
  above := nofun
  empty := nofun
  all := by
    rintro n ⟨rfl⟩ j ge lt
    exact absurd lt (Nat.not_lt.2 ge)

section Steps
variable [DecidableEq κ]

theorem queued_push (s : Szr κ) {i : Nat} (lt : i < s.numPriorities) (c : κ) :
    (s.push i c).queued = c ::ₘ s.queued := by
  have all := queued_update (t := s.push i c) lt rfl rfl
  rw [← Multiset.coe_add, add_left_comm, add_comm, add_left_cancel_iff] at all
  rw [all, add_comm]
  rfl

theorem queued_unqueue (s : Szr κ) {i : Nat} (lt : i < s.numPriorities) {c : κ} {l : List κ}
    (perm : (s.queues i).Perm (c :: l)) : s.queued = c ::ₘ (s.unqueue i c l).queued := by
  have all := queued_update (t := s.unqueue i c l) lt rfl rfl
  rw [Multiset.coe_eq_coe.2 perm, ← Multiset.cons_coe, Multiset.add_cons, ← Multiset.cons_add,
    add_right_cancel_iff] at all
  exact all.symm

theorem Sound.push (h : s.Sound) {i : Nat} {c : κ} (runs : s.isRunning = true)
    (free : s.isInQueue c = false) (lt : i < s.numPriorities) : (s.push i c).Sound := by
  have notMem : ∀ j, c ∉ s.queues j := by
    intro j mem
    rw [((h.listed j c).1 mem).1] at free
    cases free
  have started := h.running.1 runs
  constructor
  case listed =>
    intro j d
    simp only [Szr.push]
    by_cases sameCmd : d = c
    · subst sameCmd
      rw [Function.update_self, Function.update_self]
      by_cases same : j = i
      · subst same
        simp
      · simp [Function.update_of_ne same, notMem j, Ne.symm same]
    · rw [Function.update_of_ne sameCmd, Function.update_of_ne sameCmd, ← h.listed]
      by_cases same : j = i
      · subst same
        simp [sameCmd]
      · rw [Function.update_of_ne same]
  case nodup =>
    intro j
    simp only [Szr.push]
    by_cases same : j = i
    · subst same
      rw [Function.update_self, List.nodup_append]
      refine ⟨h.nodup j, List.nodup_singleton c, ?_⟩
      rintro d mem e eq rfl
      rw [List.mem_singleton.1 eq] at mem
      exact notMem j mem
    · rw [Function.update_of_ne same]
      exact h.nodup j
  case below =>
    intro d
    simp only [Szr.push]
    by_cases sameCmd : d = c
    · subst sameCmd
      rw [Function.update_self, Function.update_self]
      intro _
      exact lt
    · rw [Function.update_of_ne sameCmd, Function.update_of_ne sameCmd]
      exact h.below d
  case refCnt =>
    have before := h.refCnt
    rw [queued_push s lt, Multiset.card_cons]
    simp only [Szr.push]
    push_cast
    omega
  case running => exact h.running
  case pending =>
    intro evt
    have ended := (h.pending evt).2
    rw [started] at ended
    cases ended
  case waited =>
    intro waited
    simp only [Szr.push, started] at waited
    cases waited
  case raised => exact h.raised
  case exited => exact h.exited
  case done => exact h.done
  case current => exact h.current

theorem Sound.unqueue (h : s.Sound) {i : Nat} {c : κ} {l : List κ}
    (perm : (s.queues i).Perm (c :: l)) : (s.unqueue i c l).Sound := by
  have mem : c ∈ s.queues i := perm.mem_iff.2 List.mem_cons_self
  obtain ⟨flag, prio⟩ := (h.listed i c).1 mem
  have lt := h.lt mem
  have nodup : (c :: l).Nodup := perm.nodup_iff.1 (h.nodup i)
  obtain ⟨notMem, nodup⟩ := List.nodup_cons.1 nodup
  have queued := queued_unqueue s lt perm
  have cnt : (s.unqueue i c l).refCnt =
      (s.unqueue i c l).queued.card + s.stopper.holds.toNat := by
    have before := h.refCnt
    rw [queued, Multiset.card_cons] at before
    change s.refCnt - 1 = _
    push_cast at before
    omega
  constructor
  case listed =>
    intro j d
    simp only [Szr.unqueue, rmlockRelease]
    by_cases sameCmd : d = c
    · subst sameCmd
      rw [Function.update_self]
      by_cases same : j = i
      · subst same
        simp [notMem]
      · have other : d ∉ s.queues j := by
          intro mem
          exact same (((h.listed j d).1 mem).2.symm.trans prio)
        simp [Function.update_of_ne same, other]
    · rw [Function.update_of_ne sameCmd, ← h.listed]
      by_cases same : j = i
      · subst same
        rw [Function.update_self, perm.mem_iff, List.mem_cons]
        simp [sameCmd]
      · rw [Function.update_of_ne same]
  case nodup =>
    intro j
    simp only [Szr.unqueue, rmlockRelease]
    by_cases same : j = i
    · subst same
      rw [Function.update_self]
      exact nodup
    · rw [Function.update_of_ne same]
      exact h.nodup j
  case below =>
    intro d
    simp only [Szr.unqueue, rmlockRelease]
    by_cases sameCmd : d = c
    · subst sameCmd
      rw [Function.update_self]
      exact nofun
    · rw [Function.update_of_ne sameCmd]
      exact h.below d
  case refCnt => exact cnt
  case running => exact h.running
  case pending =>
    intro evt
    change (s.pendingEvt || decide (s.refCnt - 1 = 0)) = true at evt
    rw [Bool.or_eq_true] at evt
    rcases evt with evt | zero
    · have none := (h.pending evt).1
      rw [queued] at none
      exact absurd none Multiset.cons_ne_zero
    · have zero : (s.unqueue i c l).refCnt = 0 := of_decide_eq_true zero
      rw [zero] at cnt
      have none : (s.unqueue i c l).queued.card = 0 := by omega
      refine ⟨Multiset.card_eq_zero.1 none, ?_⟩
      change s.stopper.holds = false
      cases held : s.stopper.holds with
      | false => rfl
      | true =>
        rw [held, Bool.toNat_true] at cnt
        omega
  case waited =>
    intro waited
    have none := h.waited waited
    rw [queued] at none
    exact absurd none Multiset.cons_ne_zero
  case raised => exact h.raised
  case exited => exact h.exited
  case done => exact h.done
  case current => exact h.current

theorem Sound.work (h : s.Sound) : s.work.Sound := by
  have current := h.current
  -- The worker is not there once the serializer is stopped.
  have there : s.worker ≠ .exited → s.stopper ≠ .done := fun busy done => busy (h.done done)
  cases at' : s.worker with
  | wait =>
    rw [at'] at current there
    simp only [Szr.work, at']
    split
    · exact { h with
        exited := nofun, done := fun done => absurd done (there nofun), current := current }
    · exact h
  | check =>
    rw [at'] at current there
    simp only [Szr.work, at']
    split
    case isTrue stop =>
      exact { h with
        exited := fun _ => h.raised stop, done := fun _ => rfl, current := current }
    case isFalse =>
      exact { h with
        exited := nofun, done := fun done => absurd done (there nofun), current := current }
  | reset =>
    rw [at'] at current there
    simp only [Szr.work, at', startPass]
    exact { h with
      exited := nofun, done := fun done => absurd done (there nofun), current := current }
  | inspect left =>
    rw [at'] at current there
    cases left with
    | zero =>
      simp only [Szr.work, at']
      exact { h with
        exited := nofun, done := fun done => absurd done (there nofun), current := current }
    | succ i =>
      simp only [Szr.work, at']
      split
      · exact h
      · split
        · exact { h with
            exited := nofun, done := fun done => absurd done (there nofun), current := current }
        case h_2 c l queue =>
          have taken := h.unqueue (List.Perm.of_eq queue)
          exact { taken with
            exited := nofun, done := fun done => absurd done (there nofun), current := rfl }
  | run i c n =>
    rw [at'] at current there
    simp only [Szr.work, at']
    exact { h with
      exited := nofun, done := fun done => absurd done (there nofun), current := current }
  | complete c n =>
    rw [at'] at current there
    simp only [Szr.work, at']
    exact { h with
      exited := nofun, done := fun done => absurd done (there nofun), current := current }
  | wake c n =>
    rw [at'] at current there
    simp only [Szr.work, at']
    exact { h with
      exited := nofun, done := fun done => absurd done (there nofun), current := current }
  | clear c =>
    rw [at'] at there
    simp only [Szr.work, at', startPass]
    split
    · exact h
    · exact { h with
        exited := nofun, done := fun done => absurd done (there nofun), current := rfl }
  | exited =>
    simp only [Szr.work, at']
    exact h

theorem Sound.stopStep (h : s.Sound) : s.stopStep.Sound := by
  cases at' : s.stopper with
  | none | done =>
    simp only [Szr.stopStep, at']
    exact h
  | release =>
    simp only [Szr.stopStep, at']
    exact h.release at'
  | wait =>
    simp only [Szr.stopStep, at']
    have raised := h.raised
    have exited := h.exited
    rw [at'] at raised exited
    split
    case isTrue evt => exact h.stopTo (h.pending evt).1 (by rw [at']; rfl) rfl raised exited nofun
    case isFalse => exact h
  | setStop =>
    simp only [Szr.stopStep, at']
    have none : s.queued = 0 := h.waited (by rw [at']; rfl)
    exact h.stopTo none (by rw [at']; rfl) rfl (fun _ => rfl) (fun _ => rfl) nofun
  | notify =>
    simp only [Szr.stopStep, at']
    have none : s.queued = 0 := h.waited (by rw [at']; rfl)
    exact h.stopTo none (by rw [at']; rfl) rfl (fun _ => rfl) (fun _ => rfl) nofun
  | join =>
    simp only [Szr.stopStep, at']
    have none : s.queued = 0 := h.waited (by rw [at']; rfl)
    split
    case isTrue exited =>
      exact h.stopTo none (by rw [at']; rfl) rfl (fun _ => rfl) (fun _ => rfl) (fun _ => exited)
    case isFalse => exact h

/-- The queue of a command that is flagged. -/
theorem Sound.perm_erase (h : s.Sound) {c : κ} (flag : s.isInQueue c = true) :
    (s.queues (s.priority c)).Perm (c :: (s.queues (s.priority c)).erase c) :=
  List.perm_cons_erase ((h.listed _ c).2 ⟨flag, rfl⟩)

theorem Sound.step (h : s.Sound) (e : Event κ) : (s.step e).Sound := by
  cases e with
  | start =>
    rw [Szr.step]
    split
    case isTrue done => exact h.start done
    case isFalse => exact h
  | enqueue i c =>
    rw [Szr.step]
    split
    case isTrue accepts => exact h.push accepts.2.1 accepts.2.2.1 accepts.2.2.2
    case isFalse => exact h
  | notify =>
    rw [Szr.step]
    split
    · exact { h with }
    · exact h
  | cancel c =>
    rw [Szr.step]
    split
    case isTrue found => exact { h.unqueue (h.perm_erase found.2) with }
    case isFalse => exact h
  | cancelComplete c =>
    rw [Szr.step]
    split
    · exact { h with }
    · exact h
  | stop =>
    rw [Szr.step]
    split
    case isTrue runs => exact h.stop runs.2
    case isFalse => exact h
  | stopStep => exact h.stopStep
  | work => exact h.work

theorem run_sound {ok : Szr κ → Event κ → Prop} {numPriorities : Nat}
    (run : Runs step ok (init numPriorities) s) : s.Sound := by
  apply run.invariant (init_sound numPriorities)
  intro s e sound _
  exact sound.step e

/-- Stopping does not touch the commands. -/
theorem stopStep_eq (s : Szr κ) : ∃ refCnt pendingEvt newEvent stop stopper, s.stopStep =
    { s with
      refCnt := refCnt
      pendingEvt := pendingEvt
      newEvent := newEvent
      stop := stop
      stopper := stopper } := by
  rw [Szr.stopStep]
  split
  case h_1 | h_2 => exact ⟨_, _, _, _, _, rfl⟩
  case h_3 => exact ⟨_, _, _, _, _, rfl⟩
  case h_4 | h_7 =>
    split
    · exact ⟨_, _, _, _, _, rfl⟩
    · exact ⟨_, _, _, _, _, rfl⟩
  case h_5 | h_6 => exact ⟨_, _, _, _, _, rfl⟩

theorem taken_push (s : Szr κ) {i : Nat} {c : κ} (notMem : ∀ j, c ∉ s.queues j) (j : Nat) :
    (s.push i c).taken j = s.taken j ++ if j = i then [s.numbers] else [] := by
  have others : ∀ j, (s.queues j).map (Function.update s.postExec c s.numbers) =
      (s.queues j).map s.postExec := by
    intro j
    apply List.map_congr_left
    intro d mem
    have ne : d ≠ c := by
      rintro rfl
      exact notMem j mem
    exact Function.update_of_ne ne ..
  simp only [taken, Szr.push]
  by_cases same : j = i
  · subst same
    rw [Function.update_self, List.map_append, others, if_pos rfl, List.map_singleton,
      Function.update_self]
    simp only [List.append_assoc]
  · rw [Function.update_of_ne same, others, if_neg same, List.append_nil]

theorem Ordered.push (h : s.Ordered) (sound : s.Sound) {i : Nat} {c : κ}
    (free : s.isInQueue c = false) : (s.push i c).Ordered := by
  have notMem : ∀ j, c ∉ s.queues j := by
    intro j mem
    rw [((sound.listed j c).1 mem).1] at free
    cases free
  have new : ∀ j, ∀ n ∈ (if j = i then [s.numbers] else []), n = s.numbers := by
    intro j n mem
    split at mem
    · exact List.mem_singleton.1 mem
    · cases mem
  constructor
  · intro j
    rw [taken_push s notMem]
    apply List.pairwise_append.2
    refine ⟨h.ascending j, ?_, ?_⟩
    · split <;> simp
    · intro m memOld n memNew
      rw [new j n memNew]
      exact h.below j m memOld
  · intro j n mem
    rw [taken_push s notMem, List.mem_append] at mem
    change n < s.numbers + 1
    rcases mem with old | mem
    · exact Nat.lt_succ_of_lt (h.below j n old)
    · rw [new j n mem]
      exact Nat.lt_succ_self _

theorem Ordered.work (h : s.Ordered) : s.work.Ordered := by
  cases at' : s.worker with
  | wait | clear =>
    simp only [Szr.work, at', startPass]
    split
    · first | exact h | exact h.idle rfl (fun _ => rfl) rfl rfl rfl
    · first | exact h | exact h.idle rfl (fun _ => rfl) rfl rfl rfl
  | check =>
    simp only [Szr.work, at']
    split
    · exact h.idle rfl (fun _ => rfl) rfl rfl rfl
    · exact h.idle rfl (fun _ => rfl) rfl rfl rfl
  | exited =>
    simp only [Szr.work, at']
    exact h
  | reset | complete | wake =>
    simp only [Szr.work, at', startPass]
    exact h.idle rfl (fun _ => rfl) rfl rfl rfl
  | run i c n =>
    simp only [Szr.work, at']
    refine h.of_sublist rfl ?_
    intro j
    simp only [at', taken, List.filter_append, List.map_append, Worker.starting]
    by_cases same : i = j
    · simp [same]
    · simp [same]
  | inspect left =>
    cases left with
    | zero =>
      simp only [Szr.work, at']
      exact h.idle rfl (fun _ => rfl) rfl rfl rfl
    | succ i =>
      simp only [Szr.work, at']
      split
      · exact h
      · split
        · exact h.idle rfl (fun _ => rfl) rfl rfl rfl
        case h_2 c l queue =>
          refine h.of_sublist rfl ?_
          intro j
          simp only [taken, at', Szr.unqueue, rmlockRelease, Worker.starting]
          by_cases same : i = j
          · subst same
            rw [if_pos rfl, Function.update_self, queue]
            simp
          · rw [if_neg same, Function.update_of_ne (Ne.symm same)]

theorem Ordered.cancel (h : s.Ordered) (i : Nat) (c : κ) :
    (s.unqueue i c ((s.queues i).erase c)).Ordered := by
  refine h.of_sublist rfl ?_
  intro j
  simp only [taken, Szr.unqueue, rmlockRelease]
  apply List.Sublist.append (List.Sublist.refl _)
  apply List.Sublist.map
  by_cases same : j = i
  · subst same
    rw [Function.update_self]
    exact List.erase_sublist
  · rw [Function.update_of_ne same]

theorem Ordered.step (h : s.Ordered) (sound : s.Sound) (e : Event κ) : (s.step e).Ordered := by
  cases e with
  | start =>
    rw [Szr.step]
    split
    · exact h.idle rfl (fun _ => rfl) rfl rfl rfl
    · exact h
  | enqueue i c =>
    rw [Szr.step]
    split
    case isTrue accepts => exact h.push sound accepts.2.2.1
    case isFalse => exact h
  | notify | cancelComplete | stop =>
    rw [Szr.step]
    split
    · exact { h with }
    · exact h
  | cancel c =>
    rw [Szr.step]
    split
    · exact { h.cancel (s.priority c) c with }
    · exact h
  | stopStep =>
    obtain ⟨_, _, _, _, _, eq⟩ := stopStep_eq s
    rw [Szr.step, eq]
    exact { h with }
  | work => exact h.work

theorem run_ordered {ok : Szr κ → Event κ → Prop} {numPriorities : Nat}
    (run : Runs step ok (init numPriorities) s) : s.Ordered := by
  have both : s.Sound ∧ s.Ordered := by
    apply run.invariant
    · refine ⟨init_sound numPriorities, ?_, ?_⟩
      · intro i
        exact List.Pairwise.nil
      · exact nofun
    · rintro s e ⟨sound, ordered⟩ -
      exact ⟨sound.step e, ordered.step sound e⟩
  exact both.2

theorem Passed.work (h : s.Passed) : s.work.Passed := by
  cases at' : s.worker with
  | wait =>
    simp only [Szr.work, at']
    split
    · exact .of_none rfl
    · exact h
  | check =>
    simp only [Szr.work, at']
    apply Passed.of_none
    split
    · rfl
    · rfl
  | reset =>
    simp only [Szr.work, at']
    exact startPass_passed _
  | run | complete | wake =>
    simp only [Szr.work, at']
    exact .of_none rfl
  | clear =>
    simp only [Szr.work, at']
    split
    · exact h
    · exact startPass_passed _
  | exited =>
    simp only [Szr.work, at']
    exact h
  | inspect left =>
    cases left with
    | zero =>
      simp only [Szr.work, at']
      exact .of_none rfl
    | succ i =>
      have above := h.above (i + 1) at'
      have empty := h.empty (i + 1) (by rw [at']; rfl)
      have all := h.all (i + 1) (by rw [at']; rfl)
      simp only [Szr.work, at']
      split
      · exact h
      · split
        · constructor
          · rintro n ⟨rfl⟩ x mem
            rcases List.mem_cons.1 mem with rfl | mem
            · exact Nat.le_refl _
            · exact Nat.le_of_succ_le (above x mem)
          · rintro n ⟨rfl⟩ x mem ge
            rcases List.mem_cons.1 mem with rfl | mem
            · rfl
            · exact empty x mem (above x mem)
          · rintro n ⟨rfl⟩ j ge lt
            by_cases same : j = i
            · subst same
              exact List.mem_cons_self
            · exact List.mem_cons_of_mem _ (all j (by omega) lt)
        case h_2 c l queue =>
          constructor
          · exact nofun
          · rintro n ⟨rfl⟩ x mem ge
            rcases List.mem_cons.1 mem with rfl | mem
            · exact absurd ge (Nat.not_succ_le_self i)
            · exact empty x mem ge
          · rintro n ⟨rfl⟩ j ge lt
            exact List.mem_cons_of_mem _ (all j ge lt)

theorem Passed.step (h : s.Passed) (e : Event κ) : (s.step e).Passed := by
  cases e with
  | start =>
    rw [Szr.step]
    split
    · exact .of_none rfl
    · exact h
  | enqueue | notify | cancel | cancelComplete | stop =>
    rw [Szr.step]
    split
    · exact { h with }
    · exact h
  | stopStep =>
    obtain ⟨_, _, _, _, _, eq⟩ := stopStep_eq s
    rw [Szr.step, eq]
    exact { h with }
  | work => exact h.work

theorem run_passed {ok : Szr κ → Event κ → Prop} {numPriorities : Nat}
    (run : Runs step ok (init numPriorities) s) : s.Passed := by
  apply run.invariant (.of_none rfl)
  intro s e passed _
  exact passed.step e

end Steps

end Szr

end Wave300.Serializer
