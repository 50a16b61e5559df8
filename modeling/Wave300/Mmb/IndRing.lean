import Wave300.Lib.Mailbox
import Wave300.Lib.Trace

/-!
# The ring of indications and confirmations

`hw_mmb.c`: the firmware writes messages into the entries of a ring and latches an interrupt. The
interrupt handler disables the interrupt, clears it and schedules the tasklet, which reads the ring
until it finds an empty entry and then enables the interrupt, or until it has read as many messages
as the ring has entries and then schedules itself again. The firmware and the two parts of the
driver take turns in any order, one access at a time.
-/

namespace Wave300.Mmb

open Lib

variable {μ : Type}

/-- Where `mtlk_hw_mmb_interrupt_handler` is. -/
inductive Isr where
  | idle
  | disabled
  | cleared
  deriving DecidableEq

/-- Where `_mtlk_mmb_read_ind_or_cfm` is, with `processed_count` and the message it has read. -/
inductive Task (μ : Type) where
  | idle
  | reading (processed : Nat)
  | got (processed : Nat) (m : μ)
  | zeroed (processed : Nat) (m : μ)
  | cleared (processed : Nat) (m : μ)
  | advance (processed : Nat)
  | finish
  | postpone
  deriving DecidableEq

/-- The entries of the ring, none for the type zero, with the entry each side is at; what the
firmware has not latched yet, the interrupt and the tasklet; and all messages written and all
handled. -/
structure State (μ : Type) where
  ring : Nat → Option μ
  fwIdx : Nat
  owes : Bool
  latched : Bool
  enabled : Bool
  isr : Isr
  scheduled : Bool
  task : Task μ
  idx : Nat
  written : List μ
  handled : List μ

/-- The ring is cleared, and the interrupt is enabled. -/
def State.init : State μ :=
  ⟨fun _ => none, 0, false, false, true, .idle, false, .idle, 0, [], []⟩

inductive Label (μ : Type) where
  | fwWrite (m : μ)
  | fwLatch
  | isr
  | start
  | task

/-- One access of the interrupt handler -/
def State.isrStep (s : State μ) : State μ :=
  match s.isr with
  | .idle => { s with enabled := false, isr := .disabled }
  | .disabled =>
    if s.latched then { s with latched := false, isr := .cleared }
    else { s with enabled := true, isr := .idle }
  | .cleared => { s with scheduled := true, isr := .idle }

/-- One access of the tasklet, in a ring of `size` entries; with `MTLK_CCR_CLEAR_INT_UNCONDIT` the
interrupt is cleared for every message. -/
def State.taskStep (size : Nat) (s : State μ) : State μ :=
  match s.task with
  | .idle => s
  | .reading processed =>
    if processed < size then
      match s.ring s.idx with
      | none => { s with task := .finish }
      | some m => { s with task := .got (processed + 1) m }
    else { s with task := .postpone }
  | .got processed m =>
    { s with ring := Function.update s.ring s.idx none, task := .zeroed processed m }
  | .zeroed processed m => { s with latched := false, task := .cleared processed m }
  | .cleared processed m => { s with handled := s.handled ++ [m], task := .advance processed }
  | .advance processed => { s with idx := nextEntry size s.idx, task := .reading processed }
  | .finish => { s with enabled := true, task := .idle }
  | .postpone => { s with scheduled := true, task := .idle }

def step (size : Nat) (s : State μ) : Label μ → State μ
  | .fwWrite m =>
    { s with
      ring := Function.update s.ring s.fwIdx (some m)
      fwIdx := nextEntry size s.fwIdx
      owes := true
      written := s.written ++ [m] }
  | .fwLatch => { s with latched := true, owes := false }
  | .isr => s.isrStep
  | .start => { s with scheduled := false, task := .reading 0 }
  | .task => s.taskStep size

/-- The firmware writes an entry that is zero; the handler is entered when the interrupt is latched
and enabled, and the tasklet when it is scheduled and not running. -/
def Enabled (s : State μ) : Label μ → Prop
  | .fwWrite _ => s.ring s.fwIdx = none
  | .fwLatch => s.owes = true
  | .isr => s.isr ≠ .idle ∨ s.latched = true ∧ s.enabled = true
  | .start => s.scheduled = true ∧ s.task = .idle
  | .task => s.task ≠ .idle

/-- The message taken from the ring and not handled yet -/
def Task.inHand : Task μ → List μ
  | .zeroed _ m | .cleared _ m => [m]
  | _ => []

/-- The entry to be read next -/
def State.readIdx (size : Nat) (s : State μ) : Nat :=
  match s.task with
  | .zeroed .. | .cleared .. | .advance _ => nextEntry size s.idx
  | _ => s.idx

/-- The messages in the ring, from the entry to be read next on. -/
def State.unread (size : Nat) (s : State μ) : List μ :=
  readOut size s.ring size (s.readIdx size)

/-- The tasklet runs and will read the ring again before it ends, or be scheduled again. -/
def Task.willRead : Task μ → Bool
  | .idle | .finish => false
  | _ => true

/-- Somebody will look at the ring: a tasklet run is scheduled or before its final read, or the
interrupt is latched and is enabled or about to be. -/
def Noticed (s : State μ) : Prop :=
  s.scheduled = true ∨ s.task.willRead = true ∨
    s.latched = true ∧ (s.enabled = true ∨ s.task = .finish)

/-- Or it is still being told: the firmware is about to latch the interrupt, or the handler has not
scheduled the tasklet yet. -/
def Attended (s : State μ) : Prop :=
  s.owes = true ∨ s.isr ≠ .idle ∨ Noticed s

/-- One thing at a time is awake: the interrupt, its handler, the scheduled tasklet or the running
one. -/
inductive Token (s : State μ) : Prop where
  | interrupt (enabled : s.enabled = true) (isr : s.isr = .idle) (sched : s.scheduled = false)
      (task : s.task = .idle)
  | handler (enabled : s.enabled = false) (isr : s.isr = .disabled ∧ s.latched = true ∨
      s.isr = .cleared) (sched : s.scheduled = false) (task : s.task = .idle)
  | scheduled (enabled : s.enabled = false) (isr : s.isr = .idle) (sched : s.scheduled = true)
      (task : s.task = .idle)
  | running (enabled : s.enabled = false) (isr : s.isr = .idle) (sched : s.scheduled = false)
      (task : s.task ≠ .idle)

/-- How many messages were taken from the ring. -/
def State.taken (s : State μ) : Nat := s.handled.length + s.task.inHand.length

structure Inv (size : Nat) (s : State μ) : Prop where
  mailbox : Mailbox size s.ring s.written s.taken
  order : s.handled ++ s.task.inHand = s.written.take s.taken
  fwIdx : s.fwIdx = s.written.length % size
  readIdx : s.readIdx size = s.taken % size
  token : Token s
  got : ∀ processed m, s.task = .got processed m → s.ring s.idx = some m
  told : s.enabled = true ∨ s.task = .finish → s.taken < s.written.length →
    s.owes = true ∨ s.latched = true

variable {size : Nat} {s : State μ}

theorem inv_init (size : Nat) : Inv size (State.init : State μ) where
  mailbox := .start size
  order := rfl
  fwIdx := (Nat.zero_mod size).symm
  readIdx := (Nat.zero_mod size).symm
  token := .interrupt rfl rfl rfl rfl
  got _ _ is := absurd is nofun
  told _ lt := absurd lt (Nat.not_lt_zero _)

namespace Inv

/-- A step that neither writes the ring nor takes from it is a matter of who is awake. -/
theorem awake (h : Inv size s) (s' : State μ)
    (ring : s'.ring = s.ring ∧ s'.written = s.written ∧ s'.fwIdx = s.fwIdx)
    (taken : s'.handled = s.handled ∧ s'.task.inHand = s.task.inHand)
    (readIdx : s'.readIdx size = s.readIdx size) (token : Token s')
    (got : ∀ processed m, s'.task = .got processed m → s.ring s'.idx = some m)
    (told : s'.enabled = true ∨ s'.task = .finish → s.taken < s.written.length →
      s'.owes = true ∨ s'.latched = true) : Inv size s' := by
  obtain ⟨ring, written, fwIdx⟩ := ring
  obtain ⟨handled, inHand⟩ := taken
  have same : s'.taken = s.taken := by rw [State.taken, handled, inHand, State.taken]
  constructor
  case mailbox => rw [ring, written, same]; exact h.mailbox
  case order => rw [handled, inHand, written, same]; exact h.order
  case fwIdx => rw [fwIdx, written]; exact h.fwIdx
  case readIdx => rw [readIdx, same]; exact h.readIdx
  case token => exact token
  case got => rw [ring]; exact got
  case told => rw [same, written]; exact told

theorem fwWrite (h : Inv size s) (pos : 0 < size) (zeroed : s.ring s.fwIdx = none) (m : μ) :
    Inv size (step size s (.fwWrite m)) where
  mailbox := by
    have written := h.mailbox.write pos (h.fwIdx ▸ zeroed) m
    rw [← h.fwIdx] at written
    exact written
  order := h.order.trans (List.take_append_of_le_length h.mailbox.le).symm
  fwIdx := by
    have length : (s.written ++ [m]).length = s.written.length + 1 := List.length_append
    change nextEntry size s.fwIdx = (s.written ++ [m]).length % size
    rw [h.fwIdx, nextEntry_mod pos, length]
  readIdx := h.readIdx
  token := by
    cases h.token with
    | interrupt enabled isr sched task => exact .interrupt enabled isr sched task
    | handler enabled isr sched task => exact .handler enabled isr sched task
    | scheduled enabled isr sched task => exact .scheduled enabled isr sched task
    | running enabled isr sched task => exact .running enabled isr sched task
  got processed x is := by
    have here := h.got processed x is
    have ne : s.idx ≠ s.fwIdx := by
      intro same
      rw [same, zeroed] at here
      cases here
    exact (Function.update_of_ne ne ..).trans here
  told _ _ := .inl rfl

theorem fwLatch (h : Inv size s) : Inv size (step size s .fwLatch) := by
  apply h.awake (step size s .fwLatch) ⟨rfl, rfl, rfl⟩ ⟨rfl, rfl⟩ rfl
  case token =>
    cases h.token with
    | interrupt enabled isr sched task => exact .interrupt enabled isr sched task
    | handler enabled isr sched task =>
      exact .handler enabled (isr.imp_left fun is => ⟨is.1, rfl⟩) sched task
    | scheduled enabled isr sched task => exact .scheduled enabled isr sched task
    | running enabled isr sched task => exact .running enabled isr sched task
  case got => exact h.got
  case told => exact fun _ _ => .inr rfl

/-- Nothing but the interrupt and the schedule of the tasklet is written. -/
theorem flags (h : Inv size s) (isr : Isr) (latched enabled scheduled : Bool)
    (token : Token { s with isr, latched, enabled, scheduled })
    (told : enabled = true ∨ s.task = .finish → s.taken < s.written.length →
      s.owes = true ∨ latched = true) :
    Inv size { s with isr, latched, enabled, scheduled } :=
  h.awake _ ⟨rfl, rfl, rfl⟩ ⟨rfl, rfl⟩ rfl token h.got told

theorem isr (h : Inv size s) (enabled : Enabled s .isr) : Inv size (step size s .isr) := by
  have entered : s.isr = .idle → s.latched = true ∧ s.enabled = true := fun idle =>
    enabled.resolve_left fun busy => busy idle
  cases h.token with
  | interrupt on isr sched task =>
    simp only [step, State.isrStep, isr]
    exact h.flags .disabled s.latched false s.scheduled
      (.handler rfl (.inl ⟨rfl, (entered isr).1⟩) sched task) (by simp [task])
  | handler off isr sched task =>
    rcases isr with ⟨isr, latched⟩ | isr
    · simp only [step, State.isrStep, isr, latched, if_true]
      exact h.flags .cleared false s.enabled s.scheduled (.handler off (.inr rfl) sched task)
        (by simp [off, task])
    · simp only [step, State.isrStep, isr]
      exact h.flags .idle s.latched s.enabled true (.scheduled off rfl rfl task)
        (by simp [off, task])
  | scheduled off isr sched task | running off isr sched task =>
    have on := (entered isr).2
    rw [off] at on
    cases on

theorem startTask (h : Inv size s) (enabled : Enabled s .start) :
    Inv size (step size s .start) := by
  obtain ⟨sched, task⟩ := enabled
  cases h.token with
  | interrupt _ _ sched' _ | handler _ _ sched' _ | running _ _ sched' _ =>
    rw [sched] at sched'
    cases sched'
  | scheduled off isr _ _ =>
    apply h.awake (step size s .start) ⟨rfl, rfl, rfl⟩
    case taken => exact ⟨rfl, by rw [task]; rfl⟩
    case readIdx => simp only [step, State.readIdx, task]
    case token => exact .running off isr rfl nofun
    case got => rintro _ _ ⟨⟩
    case told => simp [step, off]

/-- The tasklet has read a message and zeroes its entry. -/
theorem zero (h : Inv size s) (pos : 0 < size) {processed : Nat} {m : μ}
    (task : s.task = .got processed m) (off : s.enabled = false) (isr : s.isr = .idle)
    (sched : s.scheduled = false) : Inv size (s.taskStep size) := by
  have next : s.taskStep size = { s with
      ring := Function.update s.ring s.idx none, task := .zeroed processed m } := by
    simp only [State.taskStep, task]
  have before : s.taken = s.handled.length := by
    rw [State.taken, task]
    rfl
  have idx : s.idx = s.taken % size := by
    rw [← h.readIdx, State.readIdx, task]
  have found : s.written[s.taken]? = some m :=
    h.mailbox.read_some pos (idx ▸ h.got processed m task)
  have more : s.taken < s.written.length := (List.getElem?_eq_some_iff.1 found).1
  have order : s.handled = s.written.take s.taken := by
    have order := h.order
    rw [task] at order
    exact (List.append_nil _).symm.trans order
  have taken : (s.taskStep size).taken = s.taken + 1 := by
    rw [next, before]
    rfl
  constructor
  case mailbox =>
    rw [taken, next]
    simp only [idx]
    exact h.mailbox.consume more
  case order =>
    rw [taken, next, List.take_add_one, found, ← order]
    rfl
  case fwIdx =>
    rw [next]
    exact h.fwIdx
  case readIdx =>
    rw [taken, next]
    simp only [State.readIdx, idx]
    exact nextEntry_mod pos s.taken
  case token =>
    rw [next]
    exact .running off isr sched nofun
  case got =>
    rw [next]
    rintro _ _ ⟨⟩
  case told =>
    rw [next]
    rintro (on | ⟨⟨⟩⟩)
    exact absurd (off.symm.trans on) nofun

/-- The message in hand is handled. -/
theorem handle (h : Inv size s) {processed : Nat} {m : μ}
    (task : s.task = .cleared processed m) (off : s.enabled = false) (isr : s.isr = .idle)
    (sched : s.scheduled = false) : Inv size (s.taskStep size) := by
  have next : s.taskStep size = { s with
      handled := s.handled ++ [m], task := .advance processed } := by
    simp only [State.taskStep, task]
  have hand : s.task.inHand = [m] := by rw [task]; rfl
  have taken : (s.taskStep size).taken = s.taken := by
    rw [next, State.taken, State.taken, hand]
    exact List.length_append
  constructor
  case mailbox =>
    rw [taken, next]
    exact h.mailbox
  case order =>
    have order := h.order
    rw [hand] at order
    rw [taken, next]
    exact (List.append_nil _).trans order
  case fwIdx =>
    rw [next]
    exact h.fwIdx
  case readIdx =>
    rw [taken, ← h.readIdx, next]
    simp only [State.readIdx, task]
  case token =>
    rw [next]
    exact .running off isr sched nofun
  case got =>
    rw [next]
    rintro _ _ ⟨⟩
  case told =>
    rw [next]
    rintro (on | ⟨⟨⟩⟩)
    exact absurd (off.symm.trans on) nofun

/-- The tasklet goes on without taking from the ring. -/
theorem moves (h : Inv size s) (task : Task μ) (idx : Nat) (latched : Bool)
    (off : s.enabled = false) (isr : s.isr = .idle) (sched : s.scheduled = false)
    (running : task ≠ .idle) (hand : task.inHand = s.task.inHand)
    (readIdx : State.readIdx size { s with task, idx, latched } = s.readIdx size)
    (got : ∀ processed m, task = .got processed m → s.ring idx = some m)
    (told : task = .finish → s.written.length ≤ s.taken) :
    Inv size { s with task, idx, latched } := by
  apply h.awake
  case ring => exact ⟨rfl, rfl, rfl⟩
  case taken => exact ⟨rfl, hand⟩
  case readIdx => exact readIdx
  case token => exact .running off isr sched running
  case got => exact got
  case told =>
    rintro (on | fin) more
    · exact absurd (off.symm.trans on) nofun
    · exact absurd (told fin) (Nat.not_le.2 more)

theorem read (h : Inv size s) (pos : 0 < size) {processed : Nat}
    (task : s.task = .reading processed) (off : s.enabled = false) (isr : s.isr = .idle)
    (sched : s.scheduled = false) : Inv size (s.taskStep size) := by
  have idx : s.idx = s.taken % size := by
    rw [← h.readIdx, State.readIdx, task]
  have hand : [] = s.task.inHand := by rw [task]; rfl
  simp only [State.taskStep, task]
  split
  · split
    · case h_1 empty =>
      -- Everything written was read.
      rw [idx, h.mailbox.read_none pos] at empty
      exact h.moves .finish s.idx s.latched off isr sched nofun hand
        (by simp only [State.readIdx, task]) nofun fun _ => Nat.le_of_eq empty.symm
    · case h_2 m found =>
      refine h.moves (.got (processed + 1) m) s.idx s.latched off isr sched nofun hand
        (by simp only [State.readIdx, task]) ?_ nofun
      rintro _ _ ⟨⟩
      exact found
  · exact h.moves .postpone s.idx s.latched off isr sched nofun hand
      (by simp only [State.readIdx, task]) nofun nofun

/-- The tasklet ends, and enables the interrupt or is scheduled again. -/
theorem ends (h : Inv size s) (enabled scheduled : Bool) (hand : s.task.inHand = [])
    (readIdx : s.readIdx size = s.idx)
    (token : Token { s with enabled, scheduled, task := .idle })
    (told : enabled = true → s.taken < s.written.length → s.owes = true ∨ s.latched = true) :
    Inv size { s with enabled, scheduled, task := .idle } := by
  apply h.awake
  case ring => exact ⟨rfl, rfl, rfl⟩
  case taken => exact ⟨rfl, hand.symm⟩
  case readIdx => exact readIdx.symm
  case token => exact token
  case got => rintro _ _ ⟨⟩
  case told =>
    rintro (on | ⟨⟨⟩⟩)
    exact told on

theorem task (h : Inv size s) (pos : 0 < size) (running : s.task ≠ .idle) :
    Inv size (step size s .task) := by
  cases h.token with
  | interrupt _ _ _ task | handler _ _ _ task | scheduled _ _ _ task => exact absurd task running
  | running off isr sched _ =>
    cases task : s.task with
    | idle => exact absurd task running
    | reading processed => exact h.read pos task off isr sched
    | got processed m => exact h.zero pos task off isr sched
    | zeroed processed m =>
      simp only [step, State.taskStep, task]
      exact h.moves (.cleared processed m) s.idx false off isr sched nofun (by rw [task]; rfl)
        (by simp only [State.readIdx, task]) nofun nofun
    | cleared processed m => exact h.handle task off isr sched
    | advance processed =>
      simp only [step, State.taskStep, task]
      exact h.moves (.reading processed) (nextEntry size s.idx) s.latched off isr sched nofun
        (by rw [task]; rfl) (by simp only [State.readIdx, task]) nofun nofun
    | finish =>
      simp only [step, State.taskStep, task]
      exact h.ends true s.scheduled (by rw [task]; rfl) (by simp only [State.readIdx, task])
        (.interrupt rfl isr sched rfl) fun _ => h.told (.inr task)
    | postpone =>
      simp only [step, State.taskStep, task]
      exact h.ends s.enabled true (by rw [task]; rfl) (by simp only [State.readIdx, task])
        (.scheduled off isr rfl rfl) fun on => absurd (off.symm.trans on) nofun

theorem step (h : Inv size s) (pos : 0 < size) {a : Label μ} (enabled : Enabled s a) :
    Inv size (step size s a) := by
  cases a with
  | fwWrite m => exact h.fwWrite pos enabled m
  | fwLatch => exact h.fwLatch
  | isr => exact h.isr enabled
  | start => exact h.startTask enabled
  | task => exact h.task pos enabled

end Inv

theorem Inv.unread_eq (h : Inv size s) (pos : 0 < size) :
    s.unread size = s.written.drop s.taken := by
  rw [State.unread, h.readIdx, h.mailbox.readOut_eq pos]

/-- What was written was handled, is in hand or is in the ring, in this order. -/
theorem Inv.conserved (h : Inv size s) (pos : 0 < size) :
    s.written = s.handled ++ s.task.inHand ++ s.unread size := by
  rw [h.order, h.unread_eq pos, List.take_append_drop]

theorem Inv.attended (h : Inv size s) (pos : 0 < size) (some : s.unread size ≠ []) :
    Attended s := by
  have more : s.taken < s.written.length := by
    rw [h.unread_eq pos, ne_eq, List.drop_eq_nil_iff] at some
    omega
  cases h.token with
  | interrupt on _ _ _ =>
    rcases h.told (.inl on) more with owes | latched
    · exact .inl owes
    · exact .inr (.inr (.inr (.inr ⟨latched, .inl on⟩)))
  | handler _ isr _ _ =>
    refine .inr (.inl ?_)
    rcases isr with ⟨isr, -⟩ | isr
    · rw [isr]; exact nofun
    · rw [isr]; exact nofun
  | scheduled _ _ sched _ => exact .inr (.inr (.inl sched))
  | running _ _ _ task =>
    by_cases last : s.task = .finish
    · rcases h.told (.inr last) more with owes | latched
      · exact .inl owes
      · exact .inr (.inr (.inr (.inr ⟨latched, .inr last⟩)))
    · refine .inr (.inr (.inr (.inl ?_)))
      cases is : s.task with
      | idle => exact absurd is task
      | finish => exact absurd is last
      | _ => rfl

section Draining

/-- The firmware writes no more. -/
def Unaided (s : State μ) : Label μ → Prop
  | .fwWrite _ => False
  | a => Enabled s a

/-- How far the driver is from taking the next message. -/
def State.distance (size : Nat) (s : State μ) : Nat :=
  match s.task with
  | .got .. => 3
  | .reading processed => if processed < size then 4 else 14
  | .finish => 10
  | .postpone => 13
  | .advance _ => 15
  | .cleared .. => 16
  | .zeroed .. => 17
  | .idle => match s.isr with
    | .cleared => 6
    | .disabled => 7
    | .idle => if s.scheduled then 5 else if s.latched then 8 else 9

def State.measure (size : Nat) (s : State μ) : Nat :=
  20 * (s.written.length - s.taken) + s.distance size

/-- The tasklet gets nearer to its next message. -/
theorem Inv.taskProgress (h : Inv size s) (pos : 0 < size) (isr : s.isr = .idle)
    (sched : s.scheduled = false) (running : s.task ≠ .idle)
    (more : s.task.inHand = [] → s.taken < s.written.length) :
    (Mmb.step size s .task).measure size < s.measure size := by
  cases task : s.task with
  | idle => exact absurd task running
  | reading processed =>
    have idx : s.idx = s.taken % size := by rw [← h.readIdx, State.readIdx, task]
    have unread : s.ring s.idx ≠ none := by
      rw [idx, ne_eq, h.mailbox.read_none pos]
      have := more (by rw [task]; rfl)
      omega
    obtain ⟨m, found⟩ := Option.ne_none_iff_exists'.1 unread
    simp only [Mmb.step, State.taskStep, task, found]
    split <;> simp [State.measure, State.distance, State.taken, Task.inHand, *]
  | got processed m =>
    have := more (by rw [task]; rfl)
    simp only [State.taken, task, Task.inHand, List.length_nil] at this
    simp only [Mmb.step, State.taskStep, task, State.measure, State.distance, State.taken,
      Task.inHand, List.length_nil, List.length_singleton]
    omega
  | zeroed processed m =>
    simp [Mmb.step, State.taskStep, State.measure, State.distance, State.taken, Task.inHand, task]
  | cleared processed m =>
    simp [Mmb.step, State.taskStep, State.measure, State.distance, State.taken, Task.inHand, task]
  | advance processed =>
    simp only [Mmb.step, State.taskStep, State.measure, State.distance, State.taken, Task.inHand,
      task]
    split <;> omega
  | finish =>
    simp only [Mmb.step, State.taskStep, State.measure, State.distance, State.taken, Task.inHand,
      task, isr, sched, Bool.false_eq_true, if_false]
    split <;> omega
  | postpone =>
    simp [Mmb.step, State.taskStep, State.measure, State.distance, State.taken, Task.inHand, task,
      isr]

/-- As long as something is not handled the driver has a step to make, and it gets nearer. -/
theorem Inv.progress (h : Inv size s) (pos : 0 < size) (left : s.handled ≠ s.written) :
    ∃ a, Unaided s a ∧ (Mmb.step size s a).measure size < s.measure size := by
  have conserved := h.conserved pos
  have le := h.mailbox.le
  -- With nothing in hand something is in the ring.
  have more : s.task.inHand = [] → s.taken < s.written.length := by
    intro hand
    apply Nat.lt_of_le_of_ne le
    intro all
    rw [hand, h.unread_eq pos, all, List.drop_length, List.append_nil, List.append_nil] at conserved
    exact left conserved.symm
  cases h.token with
  | interrupt on isr sched task =>
    have told := h.told (.inl on) (more (by rw [task]; rfl))
    cases latched : s.latched with
    | true =>
      refine ⟨.isr, .inr ⟨latched, on⟩, ?_⟩
      simp [Mmb.step, State.isrStep, State.measure, State.distance, State.taken, isr, task, sched,
        latched]
    | false =>
      have owes : s.owes = true := told.resolve_right (by rw [latched]; exact nofun)
      refine ⟨.fwLatch, owes, ?_⟩
      simp [Mmb.step, State.measure, State.distance, State.taken, isr, task, sched, latched]
  | handler off isr sched task =>
    rcases isr with ⟨isr, latched⟩ | isr
    · refine ⟨.isr, .inl (by rw [isr]; exact nofun), ?_⟩
      simp [Mmb.step, State.isrStep, State.measure, State.distance, State.taken, isr, task, latched]
    · refine ⟨.isr, .inl (by rw [isr]; exact nofun), ?_⟩
      simp [Mmb.step, State.isrStep, State.measure, State.distance, State.taken, isr, task]
  | scheduled off isr sched task =>
    refine ⟨.start, ⟨sched, task⟩, ?_⟩
    simp [Mmb.step, State.measure, State.distance, State.taken, Task.inHand, isr, task, sched, pos]
  | running off isr sched running =>
    exact ⟨.task, running, h.taskProgress pos isr sched running more⟩

theorem Unaided.enabled {a : Label μ} (h : Unaided s a) : Enabled s a := by
  cases a with
  | fwWrite m => exact h.elim
  | _ => exact h

theorem Unaided.written {a : Label μ} (h : Unaided s a) :
    (Mmb.step size s a).written = s.written := by
  cases a with
  | fwWrite m => exact h.elim
  | fwLatch | start => rfl
  | isr =>
    simp only [Mmb.step, State.isrStep]
    split
    · rfl
    · split <;> rfl
    · rfl
  | task =>
    simp only [Mmb.step, State.taskStep]
    split
    case h_2 =>
      split
      · split <;> rfl
      · rfl
    all_goals rfl

/-- Everything written comes to be handled when the driver goes on by itself. -/
theorem Inv.drains (h : Inv size s) (pos : 0 < size) :
    ∃ t, Runs (Mmb.step size) Unaided s t ∧ t.handled = s.written := by
  have reached : ∃ t, Runs (Mmb.step size) Unaided s t ∧
      ((Inv size t ∧ t.written = s.written) ∧ t.handled = t.written) := by
    apply Runs.reaches (P := fun t => Inv size t ∧ t.written = s.written) (State.measure size)
    · exact ⟨h, rfl⟩
    · intro t a ⟨inv, same⟩ unaided
      exact ⟨inv.step pos unaided.enabled, unaided.written.trans same⟩
    · intro t ⟨inv, same⟩ notYet
      apply inv.progress pos
      intro all
      exact notYet ⟨⟨inv, same⟩, all⟩
  obtain ⟨t, run, ⟨-, same⟩, all⟩ := reached
  exact ⟨t, run, all.trans same⟩

end Draining

/-- In any order of the accesses: what was written was handled, is in hand or is still in the ring,
in the order it was written; as long as something is in the ring somebody will look at it; and the
driver by itself comes to handle everything. -/
theorem ind_ring_conserves (pos : 0 < size) (run : Runs (step size) Enabled State.init s) :
    s.written = s.handled ++ s.task.inHand ++ s.unread size ∧
      (s.unread size ≠ [] → Attended s) ∧
      ∃ t, Runs (step size) Unaided s t ∧ t.handled = s.written := by
  have inv : Inv size s :=
    run.invariant (inv_init size) fun _ _ inv enabled => inv.step pos enabled
  exact ⟨inv.conserved pos, inv.attended pos, inv.drains pos⟩

instance {s : State Nat} : DecidablePred (Enabled s)
  | .fwWrite _ => inferInstanceAs (Decidable (_ = _))
  | .fwLatch => inferInstanceAs (Decidable (_ = _))
  | .isr => inferInstanceAs (Decidable (_ ∨ _))
  | .start => inferInstanceAs (Decidable (_ ∧ _))
  | .task => inferInstanceAs (Decidable (_ ≠ _))

/-- A ring of two entries, of which the second is written after the tasklet found it empty and
before it enables the interrupt. -/
def exampleLabels : List (Label Nat) :=
  [.fwWrite 7, .fwLatch, .isr, .isr, .isr, .start, .task, .task, .task, .task, .task, .task,
    .fwWrite 8, .fwLatch, .task]

theorem ind_ring_conserves_in_race :
    (exampleLabels.foldl (step 2) State.init).handled = [7] ∧
      Attended (exampleLabels.foldl (step 2) State.init) :=
  ⟨by decide, (ind_ring_conserves (by decide) (Runs.of_allowed
    (by decide : Allowed (step 2) Enabled State.init exampleLabels))).2.1 (by decide)⟩

/-- The firmware has written a message and not latched the interrupt yet. -/
theorem unnoticed_before_latch :
    Runs (step 2) Enabled State.init (step 2 State.init (.fwWrite 7)) ∧
      (step 2 State.init (.fwWrite 7)).unread 2 = [7] ∧
      ¬ Noticed (step 2 State.init (.fwWrite 7)) := by
  refine ⟨.step _ .start rfl, rfl, ?_⟩
  rintro (⟨⟨⟩⟩ | ⟨⟨⟩⟩ | ⟨⟨⟩, -⟩)

end Wave300.Mmb
