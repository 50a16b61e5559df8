import Wave300.Serializer.Completion

/-!
# Commands and contexts that are released

The owner of a command may reuse or free it once its completion was called, and the context of
`mtlk_serializer_execute_blocked` is on the stack of its caller, gone when it returns. Two windows
are open: `current_command` still is the command after its completion was called, and
`mtlk_osal_event_set` wakes up who waits after it has set the flag with which the waiting is over.
-/

namespace Wave300.Serializer

open Wave300.Lib

/-- What a step of the serializer may touch. -/
inductive Thing (κ : Type) where
  | command (c : κ)
  /-- The completion context of a call of `mtlk_serializer_execute_blocked`. -/
  | context (number : Nat)
  deriving DecidableEq, Repr

/-- `blocked` are the calls that `mtlk_serializer_execute_blocked` made, `waking` those whose flag a
canceling thread has set, `returned` those that have returned, and `freed` the commands that their
owners have released. -/
structure Owned (κ : Type) where
  szr : Szr κ
  blocked : Nat → Bool
  waking : Multiset Nat
  returned : List Nat
  freed : κ → Bool

variable {κ : Type}

/-- The call whose completion has set the flag, and is to wake up who waits. -/
def Worker.wakes : Worker κ → Option Nat
  | .wake _ n => some n
  | _ => none

/-- The command is in no queue, and its completion was called. -/
def Szr.isIdle [DecidableEq κ] (s : Szr κ) (c : κ) : Bool :=
  s.isInQueue c = false ∧ s.worker.hands.map (·.1) ≠ some c ∧ c ∉ s.canceling

namespace Owned

def init (numPriorities : Nat) : Owned κ where
  szr := .init numPriorities
  blocked := fun _ => false
  waking := 0
  returned := []
  freed := fun _ => false

inductive Event (κ : Type) where
  /-- A step of the serializer other than the two next. -/
  | szr (e : Szr.Event κ)
  | enqueue (priority : Nat) (cmd : κ) (isBlocked : Bool)
  | cancelComplete (cmd : κ)
  | cancelWake (number : Nat)
  /-- `mtlk_serializer_execute_blocked` returns. -/
  | returns (number : Nat)
  | free (cmd : κ)
  /-- The command is initialized anew. -/
  | reuse (cmd : κ)
  | enumCommands

/-- The completion of a call has been called. -/
def isCompleted (s : Owned κ) (n : Nat) : Bool := (s.szr.completions.map (·.1)).contains n

/-- What `mtlk_serializer_enum_commands` presents, if its callback lets it go on. -/
def presented (s : Owned κ) : List κ :=
  s.szr.current.toList ++ (List.range s.szr.numPriorities).reverse.flatMap s.szr.queues

/-- A context is touched only for a call of `mtlk_serializer_execute_blocked`. -/
def context (s : Owned κ) (n : Nat) : List (Thing κ) := if s.blocked n then [.context n] else []

def isReleased (s : Owned κ) : Thing κ → Bool
  | .command c => s.freed c
  | .context n => s.returned.contains n

theorem not_released_context {s : Owned κ} {n : Nat} (there : n ∉ s.returned) :
    ∀ x ∈ s.context n, s.isReleased x = false := by
  intro x mem
  rw [Owned.context] at mem
  split at mem
  · rw [List.mem_singleton.1 mem, isReleased, List.contains_eq_mem]
    exact decide_eq_false there
  · cases mem

variable [DecidableEq κ]

def step (s : Owned κ) : Event κ → Owned κ
  | .szr (.enqueue ..) | .szr (.cancelComplete _) => s
  | .szr e => { s with szr := s.szr.step e }
  | .enqueue i c isBlocked =>
    { s with
      szr := s.szr.step (.enqueue i c)
      blocked := Function.update s.blocked s.szr.numbers isBlocked }
  | .cancelComplete c =>
    { s with
      szr := s.szr.step (.cancelComplete c)
      waking := if c ∈ s.szr.canceling then s.szr.postExec c ::ₘ s.waking else s.waking }
  | .cancelWake n => { s with waking := s.waking.erase n }
  | .returns n =>
    if s.blocked n ∧ s.isCompleted n then { s with returned := n :: s.returned } else s
  | .free c => if s.szr.isIdle c then { s with freed := Function.update s.freed c true } else s
  | .reuse c => { s with freed := Function.update s.freed c false }
  | .enumCommands => s

/-- What a step of the serializer reads or writes of commands and contexts. An operation on a list
may touch all its entries. -/
def touches (s : Owned κ) : Event κ → List (Thing κ)
  | .szr (.cancel c) => .command c :: (s.szr.queues (s.szr.priority c)).map .command
  | .szr .work =>
    match s.szr.worker with
    | .inspect (i + 1) => (s.szr.queues i).map .command
    | .run _ c _ => [.command c]
    | .complete c _ => .command c :: s.context (s.szr.postExec c)
    | .wake _ n => s.context n
    | _ => []
  | .szr _ => []
  | .enqueue i c _ => .command c :: (s.szr.queues i).map .command
  | .cancelComplete c =>
    if c ∈ s.szr.canceling then .command c :: s.context (s.szr.postExec c) else []
  | .cancelWake n => if n ∈ s.waking then s.context n else []
  | .enumCommands => s.presented.map .command
  | .returns _ | .free _ | .reuse _ => []

/-- Who calls the serializer owns the command: it is not freed, and it is enqueued again only after
its completion was called. -/
def Contract (s : Owned κ) : Event κ → Prop
  | .enqueue i c _ => s.freed c = false ∧ s.szr.Settles (.enqueue i c)
  | .szr (.cancel c) => s.freed c = false
  | _ => True

/-- Commands are not enumerated between a completion and the end of the command, and
`mtlk_serializer_execute_blocked` does not return before its event has woken up who waits. -/
def Awaited (s : Owned κ) : Event κ → Prop
  | .enumCommands => s.szr.worker.cmd = s.szr.worker.hands.map (·.1)
  | .returns n => n ∉ s.waking ∧ s.szr.worker.wakes ≠ some n
  | _ => True

instance (s : Owned κ) : ∀ e, Decidable (s.Contract e)
  | .enqueue .. => inferInstanceAs (Decidable (_ ∧ _))
  | .szr (.cancel _) => inferInstanceAs (Decidable (_ = _))
  | .szr .start | .szr (.enqueue ..) | .szr .notify | .szr (.cancelComplete _) | .szr .stop
  | .szr .stopStep | .szr .work | .cancelComplete _ | .cancelWake _ | .returns _ | .free _
  | .reuse _ | .enumCommands => .isTrue trivial

instance (s : Owned κ) : ∀ e, Decidable (s.Awaited e)
  | .enumCommands => inferInstanceAs (Decidable (_ = _))
  | .returns _ => inferInstanceAs (Decidable (_ ∧ _))
  | .szr _ | .enqueue .. | .cancelComplete _ | .cancelWake _ | .free _ | .reuse _ =>
    .isTrue trivial

end Owned

namespace Szr

variable {s : Szr κ}

theorem Accounted.not_completed (h : s.Accounted) {n : Nat} (mem : n ∈ s.opened) :
    n ∉ s.completions.map (·.1) := by
  intro completed
  have once := Multiset.nodup_iff_count_le_one.1 (Multiset.nodup_range s.numbers) n
  rw [← h.numbers, Multiset.count_add, Multiset.coe_count] at once
  have first := List.count_pos_iff.2 completed
  have second := Multiset.count_pos.2 mem
  omega

theorem mem_opened_of_queued {c : κ} (mem : c ∈ s.queued) : s.postExec c ∈ s.opened := by
  rw [opened, Multiset.mem_add, Multiset.mem_add]
  exact .inl (.inl (Multiset.mem_map_of_mem _ mem))

theorem mem_opened_of_canceling {c : κ} (mem : c ∈ s.canceling) : s.postExec c ∈ s.opened := by
  rw [opened, Multiset.mem_add]
  exact .inr (Multiset.mem_map_of_mem _ mem)

theorem Accounted.mem_opened_of_hands (h : s.Accounted) {c : κ} {n : Nat}
    (hands : s.worker.hands = some (c, n)) : s.postExec c ∈ s.opened := by
  rw [h.held c n hands, opened, Multiset.mem_add, Multiset.mem_add, hands]
  exact .inl (.inr (List.mem_singleton.2 rfl))

variable [DecidableEq κ]

theorem isIdle_iff {c : κ} : s.isIdle c = true ↔
    s.isInQueue c = false ∧ s.worker.hands.map (·.1) ≠ some c ∧ c ∉ s.canceling := by
  simp [isIdle]

theorem isIdle_unqueue {c d : κ} (idle : s.isIdle c = true) (i : Nat) (l : List κ) :
    (s.unqueue i d l).isIdle c = true := by
  obtain ⟨flag, hands, canceling⟩ := isIdle_iff.1 idle
  refine isIdle_iff.2 ⟨?_, hands, canceling⟩
  change Function.update s.isInQueue d false c = false
  by_cases same : c = d
  · subst same
    exact Function.update_self ..
  · rw [Function.update_of_ne same]
    exact flag

theorem isIdle_work (sound : s.Sound) {c : κ} (idle : s.isIdle c = true) :
    s.work.isIdle c = true := by
  obtain ⟨flag, hands, canceling⟩ := isIdle_iff.1 idle
  cases at' : s.worker with
  | wait | clear =>
    simp only [Szr.work, at', startPass]
    split
    · first | exact idle | exact isIdle_iff.2 ⟨flag, (by rintro ⟨⟩), canceling⟩
    · first | exact idle | exact isIdle_iff.2 ⟨flag, (by rintro ⟨⟩), canceling⟩
  | check =>
    simp only [Szr.work, at']
    split
    · exact isIdle_iff.2 ⟨flag, (by rintro ⟨⟩), canceling⟩
    · exact isIdle_iff.2 ⟨flag, (by rintro ⟨⟩), canceling⟩
  | reset | complete | wake =>
    simp only [Szr.work, at', startPass]
    exact isIdle_iff.2 ⟨flag, (by rintro ⟨⟩), canceling⟩
  | run i d n =>
    rw [at'] at hands
    simp only [Szr.work, at']
    exact isIdle_iff.2 ⟨flag, hands, canceling⟩
  | inspect left =>
    cases left with
    | zero =>
      simp only [Szr.work, at']
      exact isIdle_iff.2 ⟨flag, (by rintro ⟨⟩), canceling⟩
    | succ i =>
      simp only [Szr.work, at']
      split
      · exact idle
      · split
        · exact isIdle_iff.2 ⟨flag, (by rintro ⟨⟩), canceling⟩
        case h_2 d l queue =>
          have mem : d ∈ s.queues i := by
            rw [queue]
            exact List.mem_cons_self
          have ne : c ≠ d := by
            rintro rfl
            rw [((sound.listed i c).1 mem).1] at flag
            cases flag
          obtain ⟨flag, -, canceling⟩ := isIdle_iff.1 (isIdle_unqueue (d := d) idle i l)
          refine isIdle_iff.2 ⟨flag, ?_, canceling⟩
          simpa [Worker.hands] using Ne.symm ne
  | exited =>
    simp only [Szr.work, at']
    exact idle

/-- A command stays with its owner until it is enqueued. -/
theorem isIdle_step (sound : s.Sound) {c : κ} (idle : s.isIdle c = true) {e : Event κ}
    (other : ∀ i, e ≠ .enqueue i c) : (s.step e).isIdle c = true := by
  obtain ⟨flag, hands, canceling⟩ := isIdle_iff.1 idle
  cases e with
  | start =>
    rw [Szr.step]
    split
    · exact isIdle_iff.2 ⟨flag, (by rintro ⟨⟩), canceling⟩
    · exact idle
  | enqueue i d =>
    have ne : c ≠ d := by
      rintro rfl
      exact other i rfl
    rw [Szr.step]
    split
    · refine isIdle_iff.2 ⟨?_, hands, canceling⟩
      change Function.update s.isInQueue d true c = false
      rw [Function.update_of_ne ne]
      exact flag
    · exact idle
  | notify | stop =>
    rw [Szr.step]
    split
    · exact idle
    · exact idle
  | cancel d =>
    rw [Szr.step]
    split
    case isTrue found =>
      have ne : c ≠ d := by
        rintro rfl
        rw [found.2] at flag
        cases flag
      obtain ⟨flag, hands, canceling⟩ := isIdle_iff.1
        (isIdle_unqueue (d := d) idle (s.priority d) ((s.queues (s.priority d)).erase d))
      refine isIdle_iff.2 ⟨flag, hands, ?_⟩
      intro mem
      rcases Multiset.mem_cons.1 mem with same | mem
      · exact ne same
      · exact canceling mem
    case isFalse => exact idle
  | cancelComplete d =>
    rw [Szr.step]
    split
    · refine isIdle_iff.2 ⟨flag, hands, ?_⟩
      intro mem
      exact canceling (Multiset.mem_of_mem_erase mem)
    · exact idle
  | stopStep =>
    obtain ⟨_, _, _, _, _, eq⟩ := stopStep_eq s
    rw [Szr.step, eq]
    exact idle
  | work => exact isIdle_work sound idle

theorem completions_step (s : Szr κ) (e : Event κ) :
    s.completions.map (·.1) ⊆ (s.step e).completions.map (·.1) := by
  cases e with
  | start | enqueue | notify | cancel | stop =>
    rw [Szr.step]
    split
    · exact List.Subset.refl _
    · exact List.Subset.refl _
  | cancelComplete =>
    rw [Szr.step]
    split
    · exact List.subset_cons_self ..
    · exact List.Subset.refl _
  | stopStep =>
    obtain ⟨_, _, _, _, _, eq⟩ := stopStep_eq s
    rw [Szr.step, eq]
    exact List.Subset.refl _
  | work =>
    cases at' : s.worker with
    | complete =>
      simp only [Szr.step, Szr.work, at']
      exact List.subset_cons_self ..
    | inspect left =>
      cases left with
      | zero =>
        simp only [Szr.step, Szr.work, at']
        exact List.Subset.refl _
      | succ i =>
        simp only [Szr.step, Szr.work, at']
        split
        · exact List.Subset.refl _
        · split
          · exact List.Subset.refl _
          · exact List.Subset.refl _
    | wait | clear =>
      simp only [Szr.step, Szr.work, at', startPass]
      split
      · exact List.Subset.refl _
      · exact List.Subset.refl _
    | check | reset | run | wake | exited =>
      simp only [Szr.step, Szr.work, at', startPass]
      exact List.Subset.refl _

/-- Only a command whose completion was called is waking up who waits for it. -/
theorem wakes_work {n : Nat} (wakes : s.work.worker.wakes = some n) :
    ∃ c m, s.worker = .complete c m ∧ n = s.postExec c := by
  cases at' : s.worker with
  | complete d m =>
    simp only [Szr.work, at', Worker.wakes, Option.some.injEq] at wakes
    exact ⟨d, m, rfl, wakes.symm⟩
  | inspect left =>
    cases left with
    | zero => simp [Szr.work, at', Worker.wakes] at wakes
    | succ i =>
      simp only [Szr.work, at'] at wakes
      split at wakes
      · rw [at'] at wakes
        cases wakes
      · split at wakes
        · cases wakes
        · cases wakes
  | wait | clear =>
    simp only [Szr.work, at', startPass] at wakes
    split at wakes
    · first | cases wakes | (rw [at'] at wakes; cases wakes)
    · first | cases wakes | (rw [at'] at wakes; cases wakes)
  | check =>
    simp only [Szr.work, at'] at wakes
    split at wakes
    · cases wakes
    · cases wakes
  | reset | run | wake | exited => simp [Szr.work, at', startPass, Worker.wakes] at wakes

theorem wakes_step {e : Event κ} {n : Nat} (wakes : (s.step e).worker.wakes = some n) :
    s.worker.wakes = some n ∨ ∃ c m, s.worker = .complete c m ∧ n = s.postExec c := by
  cases e with
  | start =>
    rw [Szr.step] at wakes
    split at wakes
    · cases wakes
    · exact .inl wakes
  | enqueue | notify | cancel | cancelComplete | stop =>
    rw [Szr.step] at wakes
    split at wakes
    · exact .inl wakes
    · exact .inl wakes
  | stopStep =>
    obtain ⟨_, _, _, _, _, eq⟩ := stopStep_eq s
    rw [Szr.step, eq] at wakes
    exact .inl wakes
  | work => exact .inr (wakes_work wakes)

end Szr

namespace Owned

variable [DecidableEq κ]

/-- Nothing that was released is still to be touched. -/
structure Held (s : Owned κ) : Prop where
  sound : s.szr.Sound
  accounted : s.szr.Accounted
  freed : ∀ c, s.freed c = true → s.szr.isIdle c = true
  completed : ∀ n ∈ s.returned, n ∈ s.szr.completions.map (·.1)
  woken : ∀ n ∈ s.returned, n ∉ s.waking ∧ s.szr.worker.wakes ≠ some n

variable {s : Owned κ}

theorem Held.not_returned (h : s.Held) {n : Nat} (mem : n ∈ s.szr.opened) : n ∉ s.returned := by
  intro returned
  exact h.accounted.not_completed mem (h.completed n returned)

/-- A step of the serializer, when no freed command is enqueued. -/
theorem Held.szr (h : s.Held) {e : Szr.Event κ} (settles : s.szr.Settles e)
    (owned : ∀ i c, e = .enqueue i c → s.freed c = false) {blocked : Nat → Bool}
    {waking : Multiset Nat} (wakes : ∀ n ∈ waking, n ∈ s.waking ∨ n ∈ s.szr.opened) :
    { s with szr := s.szr.step e, blocked := blocked, waking := waking }.Held where
  sound := h.sound.step e
  accounted := h.accounted.step h.sound settles
  freed := by
    intro c gone
    apply Szr.isIdle_step h.sound (h.freed c gone)
    intro i same
    have kept := owned i c same
    rw [show s.freed c = true from gone] at kept
    cases kept
  completed := by
    intro n mem
    exact Szr.completions_step s.szr e (h.completed n mem)
  woken := by
    intro n mem
    obtain ⟨notWaking, notWake⟩ := h.woken n mem
    constructor
    · intro waked
      rcases wakes n waked with waked | opened
      · exact notWaking waked
      · exact h.not_returned opened mem
    · intro waked
      rcases Szr.wakes_step waked with waked | ⟨c, m, at', rfl⟩
      · exact notWake waked
      · have hands : s.szr.worker.hands = some (c, m) := by
          rw [at']
          rfl
        exact h.not_returned (h.accounted.mem_opened_of_hands hands) mem

theorem Held.step (h : s.Held) {e : Event κ} (contract : s.Contract e) (awaited : s.Awaited e) :
    (s.step e).Held := by
  cases e with
  | szr e =>
    cases e with
    | enqueue | cancelComplete => exact h
    | start | notify | cancel | stop | stopStep | work =>
      refine h.szr ?_ ?_ fun n mem => .inl mem
      · exact trivial
      · exact nofun
  | enqueue i c isBlocked =>
    refine h.szr contract.2 ?_ fun n mem => .inl mem
    rintro j d ⟨rfl, rfl⟩
    exact contract.1
  | cancelComplete c =>
    refine h.szr (e := .cancelComplete c) trivial nofun ?_
    intro n mem
    split at mem
    case isTrue canceling =>
      rcases Multiset.mem_cons.1 mem with rfl | mem
      · exact .inr (Szr.mem_opened_of_canceling canceling)
      · exact .inl mem
    case isFalse => exact .inl mem
  | cancelWake n =>
    exact { h with
      woken := fun m mem =>
        ⟨fun wakes => (h.woken m mem).1 (Multiset.mem_of_mem_erase wakes), (h.woken m mem).2⟩ }
  | returns n =>
    rw [Owned.step]
    split
    case isTrue ended =>
      constructor
      case sound => exact h.sound
      case accounted => exact h.accounted
      case freed => exact h.freed
      case completed =>
        intro m mem
        rcases List.mem_cons.1 mem with rfl | mem
        · exact List.contains_iff_mem.1 ended.2
        · exact h.completed m mem
      case woken =>
        intro m mem
        rcases List.mem_cons.1 mem with rfl | mem
        · exact awaited
        · exact h.woken m mem
    case isFalse => exact h
  | free c =>
    rw [Owned.step]
    split
    case isTrue idle =>
      refine { h with freed := ?_ }
      intro d gone
      change Function.update s.freed c true d = true at gone
      by_cases same : d = c
      · subst same
        exact idle
      · rw [Function.update_of_ne same] at gone
        exact h.freed d gone
    case isFalse => exact h
  | reuse c =>
    refine { h with freed := ?_ }
    intro d gone
    change Function.update s.freed c false d = true at gone
    by_cases same : d = c
    · subst same
      rw [Function.update_self] at gone
      cases gone
    · rw [Function.update_of_ne same] at gone
      exact h.freed d gone
  | enumCommands => exact h

theorem init_held (numPriorities : Nat) : (init numPriorities : Owned κ).Held where
  sound := Szr.init_sound numPriorities
  accounted := Szr.init_accounted numPriorities
  freed := nofun
  completed := nofun
  woken := nofun

theorem Held.not_freed (h : s.Held) {c : κ} (busy : s.szr.isIdle c = false) :
    s.isReleased (.command c) = false := by
  change s.freed c = false
  by_contra gone
  rw [Bool.not_eq_false] at gone
  rw [h.freed c gone] at busy
  cases busy

theorem Held.not_freed_of_mem (h : s.Held) {i : Nat} {c : κ} (mem : c ∈ s.szr.queues i) :
    s.isReleased (.command c) = false := by
  apply h.not_freed
  have flag := ((h.sound.listed i c).1 mem).1
  simp [Szr.isIdle, flag]

theorem Held.not_freed_of_hands (h : s.Held) {c : κ} {n : Nat}
    (hands : s.szr.worker.hands = some (c, n)) : s.isReleased (.command c) = false := by
  apply h.not_freed
  simp [Szr.isIdle, hands]

theorem Held.queue (h : s.Held) (i : Nat) :
    ∀ x ∈ (s.szr.queues i).map .command, s.isReleased x = false := by
  intro x mem
  obtain ⟨c, queued, rfl⟩ := List.mem_map.1 mem
  exact h.not_freed_of_mem queued

/-- A command that is presented waits for its completion, if the commands are not enumerated too
late. -/
theorem Held.presented (h : s.Held) (awaited : s.Awaited .enumCommands) {c : κ}
    (mem : c ∈ s.presented) :
    s.isReleased (.command c) = false ∧ s.isCompleted (s.szr.postExec c) = false := by
  rw [Owned.presented, List.mem_append] at mem
  have open' : s.isReleased (.command c) = false ∧ s.szr.postExec c ∈ s.szr.opened := by
    rcases mem with current | queued
    · rw [h.sound.current, awaited, Option.mem_toList] at current
      obtain ⟨⟨d, n⟩, hands, rfl⟩ := Option.map_eq_some_iff.1 current
      exact ⟨h.not_freed_of_hands hands, h.accounted.mem_opened_of_hands hands⟩
    · obtain ⟨i, lt, mem⟩ := List.mem_flatMap.1 queued
      have lt := List.mem_range.1 (List.mem_reverse.1 lt)
      refine ⟨h.not_freed_of_mem mem, Szr.mem_opened_of_queued ?_⟩
      exact (Szr.mem_queued s.szr c).2 ⟨i, lt, mem⟩
  refine ⟨open'.1, ?_⟩
  rw [isCompleted, List.contains_eq_mem]
  exact decide_eq_false (h.accounted.not_completed open'.2)

/-- The worker touches nothing that was released. -/
theorem Held.touches_work (h : s.Held) :
    ∀ x ∈ s.touches (.szr .work), s.isReleased x = false := by
  intro x mem
  simp only [touches] at mem
  split at mem
  case h_1 i at' => exact h.queue i x mem
  case h_2 c n at' =>
    rw [List.mem_singleton.1 mem]
    exact h.not_freed_of_hands (by rw [at']; rfl)
  case h_3 c n at' =>
    have hands : s.szr.worker.hands = some (c, n) := by
      rw [at']
      rfl
    rcases List.mem_cons.1 mem with rfl | mem
    · exact h.not_freed_of_hands hands
    · exact not_released_context (h.not_returned (h.accounted.mem_opened_of_hands hands)) x mem
  case h_4 c n at' =>
    apply not_released_context _ x mem
    intro returned
    apply (h.woken n returned).2
    rw [at']
    rfl
  case h_5 => cases mem

theorem Held.touches (h : s.Held) {e : Event κ} (contract : s.Contract e)
    (awaited : s.Awaited e) : ∀ x ∈ s.touches e, s.isReleased x = false := by
  intro x mem
  cases e with
  | szr e =>
    cases e with
    | cancel c =>
      rcases List.mem_cons.1 mem with rfl | mem
      · exact contract
      · exact h.queue _ x mem
    | work => exact h.touches_work x mem
    | start | enqueue | notify | cancelComplete | stop | stopStep => cases mem
  | enqueue i c isBlocked =>
    rcases List.mem_cons.1 mem with rfl | mem
    · exact contract.1
    · exact h.queue i x mem
  | cancelComplete c =>
    simp only [Owned.touches] at mem
    split at mem
    case isTrue canceling =>
      rcases List.mem_cons.1 mem with rfl | mem
      · apply h.not_freed
        simp [Szr.isIdle, canceling]
      · exact not_released_context (h.not_returned (Szr.mem_opened_of_canceling canceling)) x mem
    case isFalse => cases mem
  | cancelWake n =>
    simp only [Owned.touches] at mem
    split at mem
    case isTrue waking =>
      apply not_released_context _ x mem
      intro returned
      exact (h.woken n returned).1 waking
    case isFalse => cases mem
  | enumCommands =>
    obtain ⟨c, shown, rfl⟩ := List.mem_map.1 mem
    exact (h.presented awaited shown).1
  | returns | free | reuse => cases mem

end Owned

open Owned

variable [DecidableEq κ]

/-- No step touches a command or a context that was released, and no command is presented whose
completion was called. -/
theorem completed_invisible {numPriorities : Nat} {s : Owned κ} {e : Owned.Event κ}
    (run : Runs step (fun s e => s.Contract e ∧ s.Awaited e) (init numPriorities) s)
    (contract : s.Contract e) (awaited : s.Awaited e) :
    (∀ x ∈ s.touches e, s.isReleased x = false) ∧
    (e = .enumCommands → ∀ c ∈ s.presented, s.isCompleted (s.szr.postExec c) = false) := by
  have held : s.Held := by
    apply run.invariant (init_held numPriorities)
    rintro s e held ⟨contract, awaited⟩
    exact held.step contract awaited
  constructor
  · exact held.touches contract awaited
  · rintro rfl c mem
    exact (held.presented awaited mem).2

/-- A command of `mtlk_serializer_execute_blocked` is taken, run and completed. -/
def oneBlocked : List (Owned.Event Unit) :=
  [.szr .start, .enqueue 0 () true, .szr .notify, .szr .work, .szr .work, .szr .work, .szr .work,
    .szr .work, .szr .work]

/-- The caller returns when it has been woken up. -/
def oneReturned : List (Owned.Event Unit) := oneBlocked ++ [Owned.Event.szr .work, .returns 0]

theorem completed_invisible_blocked :
    let s := oneReturned.foldl step (init 1)
    s.isReleased (.context 0) = true ∧ ∀ x ∈ s.touches (.szr .work), s.isReleased x = false := by
  intro s
  have run : Runs step (fun s e => s.Contract e ∧ s.Awaited e) (init 1) s := by
    apply Runs.of_allowed
    decide +kernel
  have returned : s.isReleased (.context 0) = true := by decide +kernel
  exact ⟨returned, (completed_invisible (e := .szr .work) run trivial trivial).1⟩

/-- The command is presented after its completion was called, freed or not, and the context is
touched after it is gone. -/
theorem touched_after_release :
    let s := oneBlocked.foldl step (init 1)
    let t := [.returns 0, .free ()].foldl step s
    s.presented = [()] ∧ s.isCompleted (s.szr.postExec ()) = true ∧
      t.touches .enumCommands = [.command ()] ∧ t.isReleased (.command ()) = true ∧
      t.touches (.szr .work) = [.context 0] ∧ t.isReleased (.context 0) = true := by
  decide +kernel

end Wave300.Serializer
