import Wave300.Serializer.Queues

/-!
# The event of the serializer's thread

The thread resets the event after it woke up, and then takes commands until one pass finds every
queue empty. A command that is put into a queue it has already looked at is not forgotten: the event
is set again.
-/

namespace Wave300.Serializer

open Wave300.Lib

variable {κ : Type}

/-- The worker is past the reset of the event, and it will look at the queue `i` before it waits. -/
def Worker.willInspect (i : Nat) : Worker κ → Bool
  | .inspect left => i < left
  | .run .. | .complete .. | .wake .. | .clear _ => true
  | .wait | .check | .reset | .exited => false

/-- The worker has seen the event, and not reset it. -/
def Worker.awake : Worker κ → Bool
  | .check | .reset => true
  | _ => false

namespace Szr

structure Woken (s : Szr κ) : Prop where
  flag : s.worker.awake = true → s.newEvent = true
  woken : ∀ i, s.queues i ≠ [] →
    s.newEvent = true ∨ s.notifying = true ∨ s.worker.willInspect i = true

variable {s : Szr κ}

theorem Woken.of_newEvent (set : s.newEvent = true) : s.Woken where
  flag := fun _ => set
  woken := fun _ _ => .inl set

theorem Woken.startPass (below : ∀ i, s.queues i ≠ [] → i < s.numPriorities) :
    s.startPass.Woken where
  flag := nofun
  woken := fun i some => .inr (.inr (decide_eq_true (below i some)))

theorem Sound.lt_of_ne_nil (h : s.Sound) {i : Nat} (some : s.queues i ≠ []) :
    i < s.numPriorities := by
  obtain ⟨c, mem⟩ := List.exists_mem_of_ne_nil _ some
  exact h.lt mem

theorem Woken.of_queued (sleeps : s.worker.awake = false) (sound : s.Sound) (none : s.queued = 0) :
    s.Woken where
  flag := by
    intro awake
    rw [sleeps] at awake
    cases awake
  woken := fun i some => absurd (sound.queues_eq_nil none i) some

/-- The worker has looked at a queue, and there is nothing in it. -/
theorem Woken.pass (h : s.Woken) {i : Nat} (at' : s.worker = .inspect (i + 1))
    (empty : s.queues i = []) :
    { s with worker := .inspect i, inspected := (i, 0) :: s.inspected : Szr κ }.Woken where
  flag := nofun
  woken := by
    intro j some
    have ne : j ≠ i := by
      rintro rfl
      exact some empty
    rcases h.woken j some with set | notifying | inspects
    · exact .inl set
    · exact .inr (.inl notifying)
    · rw [at'] at inspects
      have lt := of_decide_eq_true inspects
      exact .inr (.inr (decide_eq_true (show j < i by omega)))

section Steps
variable [DecidableEq κ]

theorem newEvent_stopStep (s : Szr κ) : s.newEvent = true → s.stopStep.newEvent = true := by
  intro set
  rw [Szr.stopStep]
  split
  case h_1 | h_2 | h_3 | h_5 => exact set
  case h_4 | h_7 =>
    split
    · exact set
    · exact set
  case h_6 => rfl

theorem Woken.work (h : s.Woken) (sound : s.Sound) : s.work.Woken := by
  cases at' : s.worker with
  | wait =>
    simp only [Szr.work, at']
    split
    case isTrue set => exact .of_newEvent set
    case isFalse => exact h
  | check =>
    have set := h.flag (by rw [at']; rfl)
    simp only [Szr.work, at']
    exact .of_newEvent set
  | reset =>
    simp only [Szr.work, at']
    exact Woken.startPass (s := { s with newEvent := false }) fun _ => sound.lt_of_ne_nil
  | inspect left =>
    cases left with
    | zero =>
      simp only [Szr.work, at']
      constructor
      · rintro ⟨⟩
      · intro i some
        have woken := h.woken i some
        rw [at'] at woken
        exact woken
    | succ i =>
      simp only [Szr.work, at']
      split
      · exact h
      · split
        case h_1 empty => exact h.pass at' empty
        case h_2 => exact ⟨(by rintro ⟨⟩), fun _ _ => .inr (.inr rfl)⟩
  | run | complete | wake =>
    simp only [Szr.work, at']
    exact ⟨(by rintro ⟨⟩), fun _ _ => .inr (.inr rfl)⟩
  | clear =>
    simp only [Szr.work, at']
    split
    · exact h
    · exact Woken.startPass (s := { s with current := none }) fun _ => sound.lt_of_ne_nil
  | exited =>
    simp only [Szr.work, at']
    exact h

theorem Woken.cancel (h : s.Woken) (i : Nat) (c : κ) :
    (s.unqueue i c ((s.queues i).erase c)).Woken where
  flag := h.flag
  woken := by
    intro j some
    apply h.woken j
    rintro empty
    apply some
    change Function.update s.queues i ((s.queues i).erase c) j = []
    by_cases same : j = i
    · subst same
      rw [Function.update_self, empty]
      rfl
    · rw [Function.update_of_ne same, empty]

theorem Woken.stopStep (h : s.Woken) : s.stopStep.Woken := by
  have set := newEvent_stopStep s
  obtain ⟨_, _, _, _, _, eq⟩ := stopStep_eq s
  rw [eq] at set ⊢
  constructor
  · intro awake
    exact set (h.flag awake)
  · intro i some
    rcases h.woken i some with newEvent | woken
    · exact .inl (set newEvent)
    · exact .inr woken

theorem Woken.step (h : s.Woken) (sound : s.Sound) (e : Event κ) : (s.step e).Woken := by
  cases e with
  | start =>
    rw [Szr.step]
    split
    case isTrue done =>
      have none : s.queued = 0 := sound.waited (by rw [done]; rfl)
      exact Woken.of_queued rfl (sound.start done) none
    case isFalse => exact h
  | enqueue i c =>
    rw [Szr.step]
    split
    · exact ⟨h.flag, fun _ _ => .inr (.inl rfl)⟩
    · exact h
  | notify =>
    rw [Szr.step]
    split
    · exact .of_newEvent rfl
    · exact h
  | cancel c =>
    rw [Szr.step]
    split
    · exact { h.cancel (s.priority c) c with }
    · exact h
  | cancelComplete | stop =>
    rw [Szr.step]
    split
    · exact { h with }
    · exact h
  | stopStep => exact h.stopStep
  | work => exact h.work sound

end Steps

end Szr

open Szr

variable [DecidableEq κ]

/-- A command in a queue is not forgotten: the event is set, or the worker
will look at the queue before it waits, or the thread that enqueues still has the lock and sets the
event next. -/
theorem wakeup_not_lost {numPriorities : Nat} {s : Szr κ} {i : Nat} {c : κ}
    (run : Runs step (fun _ _ => True) (init numPriorities) s) (mem : c ∈ s.queues i) :
    s.newEvent = true ∨ s.worker.willInspect i = true ∨
      s.notifying = true ∧ (s.step .notify).newEvent = true := by
  have both : s.Sound ∧ s.Woken := by
    apply run.invariant
    · exact ⟨init_sound numPriorities, ⟨nofun, fun i some => absurd rfl some⟩⟩
    · rintro s e ⟨sound, woken⟩ -
      exact ⟨sound.step e, woken.step sound e⟩
  rcases both.2.woken i (List.ne_nil_of_mem mem) with set | notifying | inspects
  · exact .inl set
  · refine .inr (.inr ⟨notifying, ?_⟩)
    rw [step, if_pos notifying]
  · exact .inr (.inl inspects)

/-- The worker has looked at the queue of the higher priority when a command is put there. -/
theorem wakeup_not_lost_behind :
    let s := [.start, .enqueue 0 false, .notify, .work, .work, .work, .work, .enqueue 1 true,
      .notify].foldl step (init 2)
    s.worker = .inspect 1 ∧ true ∈ s.queues 1 ∧ s.newEvent = true := by
  intro s
  have run : Runs step (fun _ _ => True) (init 2) s := by
    apply Runs.of_allowed
    decide
  have behind : s.worker = .inspect 1 := by decide
  have mem : true ∈ s.queues 1 := by decide
  refine ⟨behind, mem, ?_⟩
  rcases wakeup_not_lost run mem with set | inspects | ⟨notifying, -⟩
  · exact set
  · rw [behind] at inspects
    cases inspects
  · cases notifying

/-- The thread that enqueues has not set the event yet. -/
theorem queued_before_event :
    let s := [.start, .enqueue 0 ()].foldl step (init 1)
    s.isRunning = true ∧ s.queues 0 = [()] ∧ s.newEvent = false ∧ s.worker = .wait ∧
      s.worker.willInspect 0 = false := by
  decide

end Wave300.Serializer
