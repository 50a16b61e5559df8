import Wave300.Rod.Bookkeeping

/-!
# A reordering queue over its whole life

A queue is created again and again in the same array, for windows of different sizes. Its books
are kept through all of that, and a flush always ends.
-/

namespace Wave300.Rod

open Wave300.Lib

variable {α : Type} {t : Nat} {q : Queue α}

inductive Call (α : Type) where
  | create (now : Nat) (res : WssResult) (winSize ssn : Nat)
  | between (op : Op α)

/-- A window fits the array, and a sequence number is twelve bits wide. -/
def Call.Valid : Call α → Prop
  | .create _ _ winSize ssn =>
    (0 < winSize ∧ winSize ≤ maxReordWindow) ∧ ssn < sequenceNumberLimit
  | .between op => op.Valid

instance : ∀ c : Call α, Decidable c.Valid
  | .create _ _ _ _ => inferInstanceAs (Decidable (_ ∧ _))
  | .between op => inferInstanceAs (Decidable op.Valid)

/-- The packets a call hands in. -/
def Call.offered : Call α → List (Packet α)
  | .create _ _ _ _ => []
  | .between op => op.offered

def call (q : Queue α) : Call α → Queue α
  | .create now res winSize ssn => mtlkCreateRodQueue now res q winSize ssn
  | .between op => step q op

/-- Each packet that was handed in has been sent up, freed or put in a slot, and just once. -/
structure Books [DecidableEq α] (offered : List (Packet α)) (q : Queue α) : Prop where
  count : q.count = (List.range q.windowSize).countP fun i => (q.nbuf i).isSome
  beyond : ∀ i, q.windowSize ≤ i → q.nbuf i = none
  fits : q.count ≤ q.windowSize
  head : q.head < sequenceNumberLimit
  once : ∀ p, (q.sentUp.map Delivery.packet).count p + (q.drops.map Drop.packet).count p +
    ((List.range q.windowSize).countP fun i => q.nbuf i = some p) = offered.count p

/-- What a flush of `q` comes to. -/
structure Flushed (q q' : Queue α) : Prop where
  count : q'.count = 0
  empty : ∀ i, q'.nbuf i = none
  sentUp : (q'.sentUp.map Delivery.packet : Multiset (Packet α)) =
    (q.sentUp.map Delivery.packet : Multiset (Packet α)) + q.held
  drops : q'.drops = q.drops

/-- Between the calls, also before the first and after a queue is cleared. -/
structure Sound (q : Queue α) : Prop where
  count : q.count = q.held.card
  beyond : ∀ i, q.windowSize ≤ i → q.nbuf i = none
  slot : ∀ i p, q.nbuf i = some p → p.seq % q.windowSize = i
  window : q.windowSize ≤ maxReordWindow
  head : q.head < sequenceNumberLimit
  used : q.used = true → 0 < q.windowSize
  unused : q.used = false → q.count = 0

theorem Sound.bookkept (h : Sound q) (used : q.used = true) : Bookkept q :=
  ⟨h.used used, h.count, h.beyond, h.slot⟩

theorem Sound.zeroed : Sound (Queue.zeroed α) where
  count := rfl
  beyond _ _ := rfl
  slot := by
    rintro i p ⟨⟩
  window := Nat.zero_le _
  head := Nat.zero_lt_succ _
  used := by
    rintro ⟨⟩
  unused _ := rfl

theorem Sound.window_le (h : Sound q) : q.windowSize ≤ sequenceNumberLimit :=
  h.window.trans (by decide)

theorem held_empty (empty : ∀ i, q.nbuf i = none) : q.held = 0 :=
  contents_eq_zero.mpr fun i _ => empty i

/-- With a counter of zero every slot is free. -/
theorem Sound.empty (h : Sound q) (zero : q.count = 0) (i : Nat) : q.nbuf i = none := by
  by_cases inside : i < q.windowSize
  · apply contents_eq_zero.mp (Multiset.card_eq_zero.mp _) i inside
    rw [← zero, h.count]
    rfl
  · exact h.beyond i (Nat.le_of_not_lt inside)

/-! ## Flushing -/

theorem flushLoop_of_count (zero : q.count = 0) (fuel : Nat) : flushLoop t fuel q = q := by
  cases fuel with
  | zero => rfl
  | succ fuel => rw [flushLoop, if_pos zero]

/-- Rounds beyond those that empty the queue change nothing. -/
theorem flushLoop_add {fuel : Nat} (ends : (flushLoop t fuel q).count = 0) (more : Nat) :
    flushLoop t (fuel + more) q = flushLoop t fuel q := by
  induction fuel generalizing q with
  | zero =>
    rw [Nat.zero_add]
    exact flushLoop_of_count ends more
  | succ fuel ih =>
    rw [Nat.add_right_comm]
    simp only [flushLoop] at ends ⊢
    split
    · rfl
    next some =>
      rw [if_neg some] at ends
      exact ih ends

/-- A flush ends with every packet of the slots sent up. -/
theorem Sound.flush_ends (h : Sound q) : (mtlkFlushRodQueue t q).count = 0 := by
  cases hu : q.used with
  | false =>
    rw [mtlkFlushRodQueue, flushLoop_of_count (h.unused hu)]
    exact h.unused hu
  | true => exact flush_count (h.bookkept hu) h.head h.window_le

theorem Sound.flush_account (h : Sound q) : (mtlkFlushRodQueue t q).account = q.account := by
  cases hu : q.used with
  | false => rw [mtlkFlushRodQueue, flushLoop_of_count (h.unused hu)]
  | true => exact (flush_steady (h.bookkept hu)).account

theorem Sound.flush_drops (h : Sound q) : (mtlkFlushRodQueue t q).drops = q.drops := by
  cases hu : q.used with
  | false => rw [mtlkFlushRodQueue, flushLoop_of_count (h.unused hu)]
  | true => exact (flush_steady (h.bookkept hu)).drops

theorem Sound.flush (h : Sound q) : Sound (mtlkFlushRodQueue t q) := by
  cases hu : q.used with
  | false => rwa [mtlkFlushRodQueue, flushLoop_of_count (h.unused hu)]
  | true =>
    have steady := flush_steady (t := t) (h.bookkept hu)
    have books := steady.bookkept
    constructor
    case count => exact books.count
    case beyond => exact books.beyond
    case slot => exact books.slot
    case window => exact steady.windowSize ▸ h.window
    case head => exact flushLoop_head_lt h.head _
    case used => exact fun _ => books.window
    case unused => exact fun _ => h.flush_ends

theorem Sound.flushed (h : Sound q) : Flushed q (mtlkFlushRodQueue t q) := by
  have empty := h.flush.empty (h.flush_ends (t := t))
  constructor
  case count => exact h.flush_ends
  case empty => exact empty
  case drops => exact h.flush_drops
  case sentUp =>
    have account := h.flush_account (t := t)
    rw [Queue.account, Queue.account, held_empty empty, h.flush_drops, add_zero, add_right_comm]
      at account
    exact add_right_cancel account

/-! ## The calls -/

theorem used_kept : Kept t fun q : Queue α => q.used = true where
  retire q slot h := (retireSlot_used q slot).trans h
  bump _ h := h
  reduce _ h := h
  touch _ _ _ h := h

theorem storePacket_used (hw : 0 < q.windowSize) (h : q.used = true) (p : Packet α) :
    (storePacket t q p).used = true := by
  cases hn : q.nbuf (p.seq % q.windowSize) with
  | none =>
    rw [storePacket_free hn]
    exact used_kept.retireRodQueue hw h
  | some holder =>
    rw [storePacket_taken hn]
    exact h

theorem reorderPacket_used (h : Bookkept q) (hu : q.used = true) (p : Packet α) :
    (mtlkReorderPacket t q p).1.used = true := by
  by_cases old : sequenceNumberLimit / 2 < seqDistance q.head p.seq
  · rw [reorderPacket_tooOld hu old]
    exact hu
  · by_cases ahead : q.windowSize ≤ seqDistance q.head p.seq
    · have moved := rodMoveWindow_steady (t := t)
        (h.tally fun s => { s with overflows := s.overflows + 1 })
        (seqDistance q.head p.seq - q.windowSize + 1)
      rw [reorderPacket_ahead hu old ahead]
      exact storePacket_used moved.bookkept.window (moved.used.trans hu) p
    · rw [reorderPacket_inside hu old ahead]
      exact storePacket_used h.window hu p

/-- A queue goes out of use empty. -/
theorem Sound.step_unused (h : Sound q) (hu : q.used = true) (op : Op α)
    (released : (step q op).used = false) : (step q op).count = 0 := by
  have books := h.bookkept hu
  cases op with
  | packet t p =>
    have used : (step q (.packet t p)).used = true := reorderPacket_used books hu p
    rw [used] at released
    cases released
  | bar t ssn =>
    simp only [step, mtlkRodProcessBar, hu, if_true] at released
    split at released
    · rw [hu] at released
      cases released
    · have moved := rodMoveWindow_steady (t := t) books (seqDistance q.head ssn)
      rw [(retireRodQueue_steady moved.bookkept).used, moved.used, hu] at released
      cases released
  | timer t timeout =>
    simp only [step, mtlkHandleRodQueueTimer] at released
    split at released
    · rw [(flush_steady books).used, hu] at released
      cases released
    · rw [hu] at released
      cases released
  | clear t =>
    simp only [step, mtlkClearRodQueue, hu, if_true]
    exact h.flush_ends

/-- What a call has to do with the queue it is made on, in use or not. -/
structure Accounted (offered : List (Packet α)) (q₀ q : Queue α) : Prop where
  account : q.account = q₀.account + offered
  sound : Sound q

/-- A queue that is not in use sends packets up as they come. -/
theorem step_of_unused (hu : q.used = false) (op : Op α) :
    step q op = { q with sentUp := q.sentUp ++ op.offered.map fun p => ⟨none, p⟩ } := by
  cases op with
  | packet t p => exact reorderPacket_unused hu p
  | bar t ssn =>
    rw [step, mtlkRodProcessBar, if_neg (by simp [hu])]
    simp only [Op.offered, List.map_nil, List.append_nil]
  | timer t timeout =>
    rw [step, mtlkHandleRodQueueTimer, if_neg (by simp [hu])]
    simp only [Op.offered, List.map_nil, List.append_nil]
  | clear t =>
    rw [step, mtlkClearRodQueue, if_neg (by simp [hu])]
    simp only [Op.offered, List.map_nil, List.append_nil]

theorem Sound.step (h : Sound q) (op : Op α) : Accounted op.offered q (step q op) := by
  cases hu : q.used with
  | false =>
    rw [step_of_unused hu]
    constructor
    case account =>
      simp only [Queue.account, Queue.held, List.map_append, List.map_map, ← Multiset.coe_add]
      simp only [Function.comp_def, List.map_id', add_comm, add_left_comm]
    case sound => exact ⟨h.count, h.beyond, h.slot, h.window, h.head, h.used, h.unused⟩
  | true =>
    have stepped := step_stepped (h.bookkept hu) op
    have books := stepped.bookkept
    constructor
    case account => exact stepped.account
    case sound =>
      constructor
      case count => exact books.count
      case beyond => exact books.beyond
      case slot => exact books.slot
      case window => exact stepped.windowSize ▸ h.window
      case head => exact step_head_lt h.head op
      case used => exact fun _ => books.window
      case unused => exact h.step_unused hu op

/-- A queue is emptied before it is created anew. -/
theorem Sound.emptied (h : Sound q) :
    let q' := if q.used then mtlkFlushRodQueue t q else q
    Sound q' ∧ q'.count = 0 ∧ q'.account = q.account := by
  dsimp only
  split
  next => exact ⟨h.flush, h.flush_ends, h.flush_account⟩
  next unused => exact ⟨h, h.unused (Bool.eq_false_iff.2 unused), rfl⟩

theorem Sound.create (h : Sound q) (res : WssResult) {winSize ssn : Nat}
    (window : 0 < winSize ∧ winSize ≤ maxReordWindow) (head : ssn < sequenceNumberLimit) :
    Accounted [] q (mtlkCreateRodQueue t res q winSize ssn) := by
  obtain ⟨sound, zero, account⟩ := h.emptied (t := t)
  simp only [mtlkCreateRodQueue]
  generalize (if q.used then mtlkFlushRodQueue t q else q) = r at sound zero account ⊢
  have empty := sound.empty zero
  have none_held (w : Nat) : contents r.nbuf w = 0 := contents_eq_zero.mpr fun i _ => empty i
  have same : r.account = q.account + ([] : List (Packet α)) := by
    rw [account]
    exact (add_zero _).symm
  split
  · split
    · constructor
      case account =>
        rw [← same]
        simp only [Queue.account, Queue.held, none_held]
      case sound =>
        constructor
        case count => simp only [Queue.held, none_held, Multiset.card_zero]
        case beyond => exact fun i _ => empty i
        case slot =>
          intro i p there
          cases (empty i).symm.trans there
        case window => exact window.2
        case head => exact head
        case used => exact fun _ => window.1
        case unused => exact fun _ => rfl
    · exact ⟨same, sound.count, sound.beyond, sound.slot, sound.window, sound.head, sound.used,
        sound.unused⟩
  · exact ⟨same, sound.count, sound.beyond, sound.slot, sound.window, sound.head, sound.used,
      sound.unused⟩

theorem Sound.call (h : Sound q) {c : Call α} (valid : c.Valid) :
    Accounted c.offered q (call q c) := by
  cases c with
  | create now res winSize ssn => exact h.create res valid.1 valid.2
  | between op => exact h.step op

theorem Sound.calls (h : Sound q) {calls : List (Call α)} (valid : ∀ c ∈ calls, c.Valid) :
    Accounted (calls.flatMap Call.offered) q (calls.foldl Rod.call q) := by
  induction calls generalizing q with
  | nil => exact ⟨(add_zero _).symm, h⟩
  | cons c calls ih =>
    have one := h.call (valid c List.mem_cons_self)
    have rest := ih one.sound fun c mem => valid c (List.mem_cons_of_mem _ mem)
    constructor
    case account =>
      rw [List.foldl_cons, rest.account, one.account, add_assoc, List.flatMap_cons,
        ← Multiset.coe_add]
    case sound => exact rest.sound

/-- The books in terms of the array, for a queue that was zeroed when it was new. -/
theorem Sound.books [DecidableEq α] (h : Sound q) {offered : List (Packet α)}
    (account : q.account = offered) : Books offered q := by
  have count : q.count = (List.range q.windowSize).countP fun i => (q.nbuf i).isSome := by
    rw [h.count, ← Multiset.countP_True, Queue.held, countP_contents]
    simp
  constructor
  case count => exact count
  case beyond => exact h.beyond
  case fits => exact h.count ▸ card_contents_le q.nbuf q.windowSize
  case head => exact h.head
  case once =>
    intro p
    have counts := congrArg (Multiset.count p) account
    have slots : Multiset.count p q.held =
        (List.range q.windowSize).countP fun i => q.nbuf i = some p := by
      rw [Multiset.count, Queue.held, countP_contents]
      apply List.countP_congr
      intro i _
      cases q.nbuf i with
      | none => simp
      | some r => simp [eq_comm]
    rw [Queue.account, Multiset.count_add, Multiset.count_add, slots, Multiset.coe_count,
      Multiset.coe_count, Multiset.coe_count] at counts
    exact counts

/-- However the queue is created, used and cleared, its books are in order after each call, and
a flush would end then with every packet sent up that is in a slot. -/
theorem calls_books [DecidableEq α] {calls : List (Call α)} (valid : ∀ c ∈ calls, c.Valid) :
    let q := calls.foldl call (.zeroed α)
    Books (calls.flatMap Call.offered) q ∧
      ∀ t, Flushed q (mtlkFlushRodQueue t q) ∧
        ∀ more, flushLoop t (2 * q.windowSize + more) q = mtlkFlushRodQueue t q := by
  have accounted := Sound.zeroed.calls valid
  refine ⟨accounted.sound.books ?_, fun t => ⟨accounted.sound.flushed, ?_⟩⟩
  · rw [accounted.account]
    exact zero_add _
  · exact flushLoop_add accounted.sound.flush_ends

/-- A window of three, across the wrap, and one of five in the same array. -/
theorem calls_books_recreated :
    let calls : List (Call Nat) := [.create 0 ⟨true, true⟩ 3 4094, .between (.packet 0 ⟨0, 1⟩),
      .between (.packet 0 ⟨4095, 2⟩), .create 0 ⟨true, true⟩ 5 9, .between (.packet 0 ⟨11, 3⟩),
      .between (.packet 0 ⟨11, 4⟩)]
    let q := calls.foldl call (.zeroed Nat)
    Books (calls.flatMap Call.offered) q ∧ q.count = 1 ∧ q.windowSize = 5 ∧
      q.sentUp.length = 1 ∧ q.drops.length = 2 := by
  refine ⟨(calls_books ?_).1, by decide, by decide, by decide, by decide⟩
  decide

end Wave300.Rod
