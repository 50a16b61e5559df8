import Wave300.Serializer.Queues

/-!
# The completions of the serializer

A call of `mtlk_serializer_enqueue` is answered by one call of its completion, when two things do
not happen. The completion callback and its context are in the command, and they are read after the
command is out of its queue and the lock is released: when the command is enqueued again in between,
the answer goes to the wrong call. And `mtlk_serializer_cancel` releases `tasks_pending_lock` before
it calls the completion, so `mtlk_serializer_stop` does not wait for it.
-/

namespace Wave300.Serializer

open Wave300.Lib

variable {κ : Type}

namespace Worker

/-- The command in hand, and its number, until its completion is called. -/
def hands : Worker κ → Option (κ × Nat)
  | .run _ c n | .complete c n => some (c, n)
  | _ => none

/-- The number of the command that was run and whose completion is to be called. -/
def finished : Worker κ → Option Nat
  | .complete _ n => some n
  | _ => none

end Worker

namespace Szr

/-- The completions that are still to be called. -/
def opened (s : Szr κ) : Multiset Nat :=
  s.queued.map s.postExec + ((s.worker.hands.map (·.2)).toList : Multiset Nat) +
    s.canceling.map s.postExec

/-- What was answered to a call of `mtlk_serializer_enqueue`. -/
def completionsOf (s : Szr κ) (n : Nat) : List Result :=
  (s.completions.filter (·.1 = n)).map (·.2)

/-- How often the command of a call was run. -/
def runsOf (s : Szr κ) (n : Nat) : Nat := (s.ran.map (·.2)).count n

/-- The numbers of the completions of a kind. -/
def completed (s : Szr κ) (r : Result) : List Nat :=
  (s.completions.filter (·.2 = r)).map (·.1)

structure Accounted (s : Szr κ) : Prop where
  numbers : (s.completions.map (·.1) : Multiset Nat) + s.opened = Multiset.range s.numbers
  ran : (s.ran.map (·.2) : Multiset Nat) =
    (s.completed .executed : Multiset Nat) + (s.worker.finished.toList : Multiset Nat)
  held : ∀ c n, s.worker.hands = some (c, n) → s.postExec c = n

variable {s : Szr κ}

theorem init_accounted (numPriorities : Nat) : (init numPriorities : Szr κ).Accounted where
  numbers := by simp [init, opened, queued, Worker.hands]
  ran := by simp [init, completed, Worker.finished]
  held := nofun

theorem Accounted.start (h : s.Accounted) (sound : s.Sound) (done : s.stopper = .done) :
    s.start.Accounted := by
  have exited := sound.done done
  have numbers := h.numbers
  have ran := h.ran
  rw [opened, exited] at numbers
  rw [exited] at ran
  exact { numbers := numbers, ran := ran, held := nofun }

theorem Accounted.cancelComplete [DecidableEq κ] (h : s.Accounted) {c : κ}
    (mem : c ∈ s.canceling) :
    { s with
      canceling := s.canceling.erase c
      completions := (s.postExec c, .canceled) :: s.completions : Szr κ }.Accounted := by
  constructor
  case numbers =>
    have numbers := h.numbers
    rw [opened, ← Multiset.cons_erase mem, Multiset.map_cons, Multiset.add_cons] at numbers
    change ((s.postExec c ::ₘ (s.completions.map (·.1) : Multiset Nat)) + _) = _
    rw [← numbers, Multiset.cons_add, Multiset.add_cons]
    rfl
  case ran => exact h.ran
  case held => exact h.held

theorem length_completionsOf (s : Szr κ) (n : Nat) :
    (s.completionsOf n).length = (s.completions.map (·.1)).count n := by
  rw [completionsOf, List.length_map, ← List.countP_eq_length_filter, List.count, List.countP_map]
  apply List.countP_congr
  simp

theorem count_completionsOf (s : Szr κ) (r : Result) (n : Nat) :
    (s.completionsOf n).count r = (s.completed r).count n := by
  rw [completionsOf, completed, List.count, List.count, List.countP_map, List.countP_map,
    List.countP_filter, List.countP_filter]
  apply List.countP_congr
  simp [and_comm]

theorem count_finished_le (s : Szr κ) (n : Nat) :
    s.worker.finished.toList.count n ≤ s.opened.count n := by
  have le : s.worker.finished.toList.count n ≤ (s.worker.hands.map (·.2)).toList.count n := by
    cases s.worker <;> simp [Worker.finished, Worker.hands]
  rw [opened, Multiset.count_add, Multiset.count_add, Multiset.coe_count]
  omega

/-- A call is answered once at most, and its command was run just when the answer is that it was. -/
theorem Accounted.answer (h : s.Accounted) (n : Nat) :
    s.completionsOf n = [] ∨
      s.completionsOf n = [.executed] ∧ s.runsOf n = 1 ∨
      s.completionsOf n = [.canceled] ∧ s.runsOf n = 0 := by
  have once : (s.completionsOf n).length + s.opened.count n ≤ 1 := by
    rw [length_completionsOf, ← Multiset.coe_count, ← Multiset.count_add, h.numbers]
    exact Multiset.nodup_iff_count_le_one.1 (Multiset.nodup_range _) n
  have runs : s.runsOf n =
      (s.completionsOf n).count .executed + s.worker.finished.toList.count n := by
    rw [runsOf, ← Multiset.coe_count, h.ran, Multiset.count_add, Multiset.coe_count,
      Multiset.coe_count, count_completionsOf]
  have finished := count_finished_le s n
  rcases answers : s.completionsOf n with _ | ⟨r, _ | ⟨_, _⟩⟩
  · exact .inl rfl
  · rw [answers] at once runs
    have none : s.worker.finished.toList.count n = 0 := by
      rw [List.length_singleton] at once
      omega
    rw [none] at runs
    cases r with
    | executed => exact .inr (.inl ⟨rfl, runs⟩)
    | canceled => exact .inr (.inr ⟨rfl, runs⟩)
  · rw [answers, List.length_cons, List.length_cons] at once
    omega

/-- When `mtlk_serializer_stop` has returned, every call is answered. -/
theorem Accounted.answered (h : s.Accounted) (sound : s.Sound) (done : s.stopper = .done)
    (none : s.canceling = 0) {n : Nat} (lt : n < s.numbers) : s.completionsOf n ≠ [] := by
  have opened : s.opened = 0 := by
    have empty : s.queued = 0 := sound.waited (by rw [done]; rfl)
    rw [Szr.opened, empty, none, sound.done done]
    rfl
  have mem : n ∈ Multiset.range s.numbers := Multiset.mem_range.2 lt
  rw [← h.numbers, opened, add_zero, Multiset.mem_coe] at mem
  have pos := List.count_pos_iff.2 mem
  rw [← length_completionsOf] at pos
  exact List.ne_nil_of_length_pos pos

/-- The worker goes on with the same command, or without one. -/
theorem Accounted.move (h : s.Accounted) {t : Szr κ} (queues : t.queued = s.queued)
    (postExec : t.postExec = s.postExec) (hands : t.worker.hands = s.worker.hands)
    (finished : t.worker.finished = s.worker.finished) (ran : t.ran = s.ran)
    (canceling : t.canceling = s.canceling) (completions : t.completions = s.completions)
    (numbers : t.numbers = s.numbers) : t.Accounted where
  numbers := by
    rw [opened, queues, postExec, hands, canceling, completions, numbers]
    exact h.numbers
  ran := by
    rw [completed, finished, ran, completions]
    exact h.ran
  held := by
    rw [postExec, hands]
    exact h.held

section Steps
variable [DecidableEq κ]

/-- A command that waits for its completion is not enqueued. -/
def Settles (s : Szr κ) : Event κ → Prop
  | .enqueue _ c => s.isRunning = true → s.isInQueue c = false →
      s.worker.hands.map (·.1) ≠ some c ∧ c ∉ s.canceling
  | _ => True

/-- `mtlk_serializer_stop` does not return while a completion is to be called by
`mtlk_serializer_cancel`. -/
def Joins (s : Szr κ) : Event κ → Prop
  | .stopStep => s.stopper = .join → s.worker = .exited → s.canceling = 0
  | _ => True

def Patient (s : Szr κ) (e : Event κ) : Prop := s.Settles e ∧ s.Joins e

instance (s : Szr κ) : ∀ e, Decidable (s.Settles e)
  | .enqueue .. => inferInstanceAs (Decidable (_ → _))
  | .start | .notify | .cancel _ | .cancelComplete _ | .stop | .stopStep | .work =>
    .isTrue trivial

instance (s : Szr κ) : ∀ e, Decidable (s.Joins e)
  | .stopStep => inferInstanceAs (Decidable (_ → _))
  | .start | .enqueue .. | .notify | .cancel _ | .cancelComplete _ | .stop | .work =>
    .isTrue trivial

instance (s : Szr κ) (e : Event κ) : Decidable (s.Patient e) :=
  inferInstanceAs (Decidable (_ ∧ _))

theorem map_update_of_notMem {l : Multiset κ} {c : κ} (notMem : c ∉ l) (f : κ → Nat) (n : Nat) :
    l.map (Function.update f c n) = l.map f := by
  apply Multiset.map_congr rfl
  intro d mem
  have ne : d ≠ c := by
    rintro rfl
    exact notMem mem
  exact Function.update_of_ne ne ..

theorem Accounted.push (h : s.Accounted) (sound : s.Sound) {i : Nat} {c : κ}
    (runs : s.isRunning = true) (free : s.isInQueue c = false) (lt : i < s.numPriorities)
    (settles : s.Settles (.enqueue i c)) : (s.push i c).Accounted := by
  obtain ⟨notHeld, notCanceled⟩ := settles runs free
  have notQueued : c ∉ s.queued := by
    rw [sound.mem_queued_iff, free]
    nofun
  constructor
  case numbers =>
    have open' : (s.push i c).opened = s.numbers ::ₘ s.opened := by
      rw [opened, opened, queued_push s lt, Multiset.map_cons]
      change (Function.update s.postExec c s.numbers c ::ₘ
        s.queued.map (Function.update s.postExec c s.numbers)) + _ +
          s.canceling.map (Function.update s.postExec c s.numbers) = _
      rw [Function.update_self, map_update_of_notMem notQueued, map_update_of_notMem notCanceled,
        Multiset.cons_add, Multiset.cons_add]
      rfl
    rw [open', Multiset.add_cons]
    change s.numbers ::ₘ (_ + _) = Multiset.range (s.numbers + 1)
    rw [Multiset.range_succ, ← h.numbers]
    rfl
  case ran => exact h.ran
  case held =>
    intro d n hands
    change s.worker.hands = some (d, n) at hands
    have ne : d ≠ c := by
      rintro rfl
      rw [hands] at notHeld
      exact notHeld rfl
    change Function.update s.postExec c s.numbers d = n
    rw [Function.update_of_ne ne]
    exact h.held d n hands

theorem Accounted.cancel (h : s.Accounted) (sound : s.Sound) {c : κ}
    (flag : s.isInQueue c = true) :
    { s.unqueue (s.priority c) c ((s.queues (s.priority c)).erase c) with
      canceling := c ::ₘ s.canceling }.Accounted := by
  have perm := sound.perm_erase flag
  have queued := queued_unqueue s (sound.below c flag) perm
  constructor
  case numbers =>
    have numbers := h.numbers
    rw [opened, queued, Multiset.map_cons, Multiset.cons_add, Multiset.cons_add,
      ← Multiset.add_cons, ← Multiset.map_cons] at numbers
    exact numbers
  case ran => exact h.ran
  case held => exact h.held

theorem Accounted.take (h : s.Accounted) (sound : s.Sound) {i : Nat} {c : κ} {l : List κ}
    (at' : s.worker = .inspect (i + 1)) (queue : s.queues i = c :: l) :
    { s.unqueue i c l with
      current := some c
      worker := .run i c (s.postExec c)
      inspected := (i, l.length + 1) :: s.inspected }.Accounted := by
  have mem : c ∈ s.queues i := by
    rw [queue]
    exact List.mem_cons_self
  have queued := queued_unqueue s (sound.lt mem) (List.Perm.of_eq queue)
  constructor
  case numbers =>
    have numbers := h.numbers
    rw [opened, queued, at', Multiset.map_cons] at numbers
    change _ + (_ ::ₘ _ + 0 + _) = _ at numbers
    change _ + (Multiset.map s.postExec (s.unqueue i c l).queued + {s.postExec c} + _) = _
    rw [add_comm _ {s.postExec c}, Multiset.singleton_add]
    rw [add_zero] at numbers
    exact numbers
  case ran =>
    have ran := h.ran
    rw [at'] at ran
    exact ran
  case held =>
    rintro d n ⟨rfl⟩
    rfl

theorem Accounted.work (h : s.Accounted) (sound : s.Sound) : s.work.Accounted := by
  cases at' : s.worker with
  | wait =>
    simp only [Szr.work, at']
    split
    · exact h.move rfl rfl (by rw [at']; rfl) (by rw [at']; rfl) rfl rfl rfl rfl
    · exact h
  | check =>
    simp only [Szr.work, at']
    split
    · exact h.move rfl rfl (by rw [at']; rfl) (by rw [at']; rfl) rfl rfl rfl rfl
    · exact h.move rfl rfl (by rw [at']; rfl) (by rw [at']; rfl) rfl rfl rfl rfl
  | reset | wake =>
    simp only [Szr.work, at']
    exact h.move rfl rfl (by rw [at']; rfl) (by rw [at']; rfl) rfl rfl rfl rfl
  | inspect left =>
    cases left with
    | zero =>
      simp only [Szr.work, at']
      exact h.move rfl rfl (by rw [at']; rfl) (by rw [at']; rfl) rfl rfl rfl rfl
    | succ i =>
      simp only [Szr.work, at']
      split
      · exact h
      · split
        · exact h.move rfl rfl (by rw [at']; rfl) (by rw [at']; rfl) rfl rfl rfl rfl
        case h_2 c l queue => exact h.take sound at' queue
  | run i c n =>
    simp only [Szr.work, at']
    have numbers := h.numbers
    have ran := h.ran
    have held := h.held
    rw [opened, at'] at numbers
    rw [at'] at ran held
    constructor
    case numbers => exact numbers
    case ran =>
      change ((s.ran ++ [(i, n)]).map (·.2) : Multiset Nat) = (s.completed .executed) + [n]
      rw [List.map_append, ← Multiset.coe_add, ran]
      simp [Worker.finished]
    case held => exact held
  | complete c n =>
    simp only [Szr.work, at']
    have numbers := h.numbers
    have ran := h.ran
    have number := h.held c n (by rw [at']; rfl)
    rw [opened, at'] at numbers
    rw [at'] at ran
    rw [number]
    constructor
    case numbers =>
      change ((n ::ₘ (s.completions.map (·.1) : Multiset Nat)) +
        (Multiset.map s.postExec s.queued + 0 + _)) = _
      change _ + (Multiset.map s.postExec s.queued + {n} + _) = _ at numbers
      rw [add_comm _ ({n} : Multiset Nat), Multiset.singleton_add, Multiset.cons_add,
        Multiset.add_cons] at numbers
      rw [add_zero, Multiset.cons_add]
      exact numbers
    case ran =>
      change _ = ((n ::ₘ (s.completed .executed : Multiset Nat)) + 0)
      change _ = ((s.completed .executed : Multiset Nat) + {n}) at ran
      rw [add_zero, ← Multiset.singleton_add, add_comm]
      exact ran
    case held => rintro _ _ ⟨⟩
  | clear =>
    simp only [Szr.work, at']
    split
    · exact h
    · exact h.move rfl rfl (by rw [at']; rfl) (by rw [at']; rfl) rfl rfl rfl rfl
  | exited =>
    simp only [Szr.work, at']
    exact h

theorem Accounted.step (h : s.Accounted) (sound : s.Sound) {e : Event κ} (settles : s.Settles e) :
    (s.step e).Accounted := by
  cases e with
  | start =>
    rw [Szr.step]
    split
    case isTrue done => exact h.start sound done
    case isFalse => exact h
  | enqueue i c =>
    rw [Szr.step]
    split
    case isTrue accepts =>
      exact h.push sound accepts.2.1 accepts.2.2.1 accepts.2.2.2 settles
    case isFalse => exact h
  | notify | stop =>
    rw [Szr.step]
    split
    · exact { h with }
    · exact h
  | cancel c =>
    rw [Szr.step]
    split
    case isTrue found => exact h.cancel sound found.2
    case isFalse => exact h
  | cancelComplete c =>
    rw [Szr.step]
    split
    case isTrue mem => exact h.cancelComplete mem
    case isFalse => exact h
  | stopStep =>
    obtain ⟨_, _, _, _, _, eq⟩ := stopStep_eq s
    rw [Szr.step, eq]
    exact { h with }
  | work => exact h.work sound

/-- Once the serializer is stopped, nothing is being canceled. -/
def Joined (s : Szr κ) : Prop := s.stopper = .done → s.canceling = 0

theorem canceling_work (s : Szr κ) :
    s.work.canceling = s.canceling ∧ s.work.stopper = s.stopper := by
  rw [Szr.work]
  split <;> (try split) <;> (try split) <;> exact ⟨rfl, rfl⟩

theorem Joined.stopStep (h : s.Joined) (joins : s.Joins .stopStep) : s.stopStep.Joined := by
  have joined : s.stopStep.stopper = .done → s.canceling = 0 := by
    rw [Szr.stopStep]
    split
    case h_1 | h_2 => exact h
    case h_3 | h_5 | h_6 => rintro ⟨⟩
    case h_4 =>
      split
      · rintro ⟨⟩
      · exact h
    case h_7 at' =>
      split
      case isTrue exited =>
        intro _
        exact joins at' exited
      case isFalse => exact h
  obtain ⟨_, _, _, _, _, eq⟩ := stopStep_eq s
  rw [eq] at joined ⊢
  exact joined

theorem Joined.step (h : s.Joined) (sound : s.Sound) {e : Event κ} (joins : s.Joins e) :
    (s.step e).Joined := by
  cases e with
  | start =>
    rw [Szr.step]
    split
    · rintro ⟨⟩
    · exact h
  | enqueue | notify =>
    rw [Szr.step]
    split
    · exact h
    · exact h
  | cancel c =>
    rw [Szr.step]
    split
    case isTrue found =>
      intro done
      have none := sound.waited (by rw [show s.stopper = .done from done]; rfl)
      have mem := (sound.mem_queued_iff c).2 found.2
      rw [none] at mem
      exact absurd mem (Multiset.notMem_zero c)
    case isFalse => exact h
  | cancelComplete c =>
    rw [Szr.step]
    split
    case isTrue mem =>
      intro done
      rw [h done] at mem
      exact absurd mem (Multiset.notMem_zero c)
    case isFalse => exact h
  | stop =>
    rw [Szr.step]
    split
    · rintro ⟨⟩
    · exact h
  | stopStep => exact h.stopStep joins
  | work =>
    obtain ⟨canceling, stopper⟩ := canceling_work s
    rw [Szr.step, Joined, canceling, stopper]
    exact h

theorem run_accounted {numPriorities : Nat} (run : Runs step Patient (init numPriorities) s) :
    s.Accounted ∧ s.Joined := by
  have all : s.Sound ∧ s.Accounted ∧ s.Joined := by
    apply run.invariant
    · exact ⟨init_sound numPriorities, init_accounted numPriorities, fun _ => rfl⟩
    · rintro s e ⟨sound, accounted, joined⟩ patient
      exact ⟨sound.step e, accounted.step sound patient.1, joined.step sound patient.2⟩
  exact all.2

end Steps

end Szr

open Szr

variable [DecidableEq κ]

/-- Every call is answered at most once, with the runs of its command that the answer tells of. The
commands of a priority are run in the order of the calls, a command is taken when no queue of a
higher priority had one, `tasks_pending_lock` counts the commands in the queues, and after
`mtlk_serializer_stop` every call is answered and nothing is executed. -/
theorem completed_once_in_order {numPriorities : Nat} {s : Szr κ}
    (run : Runs step Patient (init numPriorities) s) :
    (∀ n, s.completionsOf n = [] ∨
      s.completionsOf n = [.executed] ∧ s.runsOf n = 1 ∨
      s.completionsOf n = [.canceled] ∧ s.runsOf n = 0) ∧
    (∀ i, (s.taken i).Pairwise (· < ·)) ∧
    (∀ i c n, s.worker = .run i c n →
      (∀ x ∈ s.inspected, i < x.1 → x.2 = 0) ∧
        ∀ j, i < j → j < s.numPriorities → (j, 0) ∈ s.inspected) ∧
    (s.isRunning = true → s.refCnt = s.queued.card + 1) ∧
    (s.stopper = .done →
      (∀ n, n < s.numbers → s.completionsOf n ≠ []) ∧ s.worker = .exited ∧ s.current = none) := by
  have sound := run_sound run
  obtain ⟨accounted, joined⟩ := run_accounted run
  refine ⟨accounted.answer, (run_ordered run).ascending, ?_, ?_, ?_⟩
  · intro i c n at'
    have passed := run_passed run
    have above : s.worker.passed = some (i + 1) := by rw [at']; rfl
    exact ⟨passed.empty (i + 1) above, passed.all (i + 1) above⟩
  · intro runs
    have cnt := sound.refCnt
    rw [sound.running.1 runs] at cnt
    exact cnt
  · intro done
    have exited := sound.done done
    refine ⟨fun n lt => accounted.answered sound done (joined done) lt, exited, ?_⟩
    rw [sound.current, exited]
    rfl

/-- Two commands, one of them canceled. -/
def twoCommands : List (Event Bool) :=
  [[.start, .enqueue 0 false, .notify, .enqueue 1 true, .notify, .cancel false],
    List.replicate 8 .work, [.stop, .cancelComplete false], List.replicate 5 .stopStep,
    List.replicate 6 .work, [.stopStep]].flatten

theorem completed_once_in_order_two :
    let s := twoCommands.foldl step (init 2)
    s.stopper = .done ∧ s.numbers = 2 ∧ s.worker = .exited ∧
      (∀ n, n < s.numbers → s.completionsOf n ≠ []) := by
  intro s
  have run : Runs step Patient (init 2) s := by
    apply Runs.of_allowed
    decide +kernel
  have done : s.stopper = .done := by decide +kernel
  obtain ⟨-, -, -, -, stopped⟩ := completed_once_in_order run
  obtain ⟨all, exited, -⟩ := stopped done
  exact ⟨done, by decide +kernel, exited, all⟩

/-- A command that enqueues itself while it is run: the second call is answered before its command
is run, and once more after. -/
def enqueuesItself : List (Event Unit) :=
  [[.start, .enqueue 0 (), .notify], List.replicate 4 .work, [.enqueue 0 (), .notify],
    List.replicate 7 .work].flatten

/-- A command is canceled, and the serializer stops before its completion is called. -/
def stopsEarly : List (Event Unit) :=
  [[.start, .enqueue 0 (), .notify, .cancel (), .stop], List.replicate 4 .stopStep,
    List.replicate 2 .work, [.stopStep]].flatten

theorem completed_twice_or_not_at_all :
    (enqueuesItself.foldl step (init 1)).completionsOf 1 = [.executed, .executed] ∧
    (stopsEarly.foldl step (init 1)).stopper = .done ∧
    (stopsEarly.foldl step (init 1)).completionsOf 0 = [] := by
  decide +kernel

end Wave300.Serializer
