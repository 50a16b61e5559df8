import Wave300.Rod.Bookkeeping
import Wave300.Rod.Ideal

/-!
# The queue follows the ideal buffer

For a window that divides the sequence space, slot `n % w` belongs to one number `n` of
the window at a time, whatever the head was reduced by. `Follows` relates the queue to
the buffer inside a call, where the head may be unreduced, and `Matches` between calls.
-/

namespace Wave300.Rod

open Wave300.Lib

variable {α : Type} {w t : Nat}

/-! ## Sequence numbers and slots -/

theorem window_inj {a n m : Nat} (hn : a ≤ n ∧ n < a + w) (hm : a ≤ m ∧ m < a + w)
    (h : n % w = m % w) : n = m :=
  Nat.mod_injOn_Ico a w (by simpa using hn) (by simpa using hm) h

theorem succ_mod_window (n : Nat) (hw : 0 < w) :
    (if w ≤ n % w + 1 then 0 else n % w + 1) = (n + 1) % w := by
  have lt := Nat.mod_lt n hw
  rw [← Nat.mod_add_mod n w 1]
  split
  · rw [show n % w + 1 = w by omega, Nat.mod_self]
  · exact (Nat.mod_eq_of_lt (by omega)).symm

theorem mod_window_of_dvd (hd : w ∣ sequenceNumberLimit) {a b : Nat}
    (h : a % sequenceNumberLimit = b % sequenceNumberLimit) : a % w = b % w := by
  rw [← Nat.mod_mod_of_dvd a hd, h, Nat.mod_mod_of_dvd b hd]

theorem seqDistance_congr {a b : Nat} (h : a % sequenceNumberLimit = b % sequenceNumberLimit)
    (s : Nat) : seqDistance a s = seqDistance b s := by
  simp only [seqDistance, sequenceNumberLimit] at *
  omega

theorem seqDistance_lt (a s : Nat) : seqDistance a s < sequenceNumberLimit := by
  simp only [seqDistance, sequenceNumberLimit]
  omega

theorem add_seqDistance (a : Nat) {s : Nat} (hs : s < sequenceNumberLimit) :
    (a + seqDistance a s) % sequenceNumberLimit = s := by
  simp only [seqDistance, sequenceNumberLimit] at *
  omega

theorem seqDistance_of_number {a n : Nat} (hn : a ≤ n ∧ n < a + sequenceNumberLimit) :
    seqDistance a (n % sequenceNumberLimit) = n - a := by
  simp only [seqDistance, sequenceNumberLimit] at *
  omega

/-! ## Inside a call -/

/-- `q` is where a call that began at `i` stands when the buffer has come to `b`. -/
structure Follows (t : Nat) (i : Ideal w α) (q : Queue α) (b : Buffer w (Packet α)) :
    Prop where
  window : q.windowSize = w
  pos : q.pos = b.next
  head : q.head % sequenceNumberLimit = b.next % sequenceNumberLimit
  nbuf : ∀ n, b.next ≤ n ∧ n < b.next + w → q.nbuf (n % w) = b.held n
  seq : ∀ n p, b.held n = some p → p.seq = n % sequenceNumberLimit
  outSeq : ∀ e ∈ b.out, e.2.seq = e.1 % sequenceNumberLimit
  sentUp : q.sentUp = b.out.map (fun e => ⟨some e.1, e.2⟩)
  grown : i.buffer.out.length ≤ b.out.length
  lastSent : q.lastSent = (i.settle t b).lastSent

theorem Follows.touch {i : Ideal w α} {q : Queue α} {b : Buffer w (Packet α)}
    (h : Follows t i q b) (loc : Nat) : Follows t i (q.touch loc) b :=
  ⟨h.window, h.pos, h.head, h.nbuf, h.seq, h.outSeq, h.sentUp, h.grown, h.lastSent⟩

theorem Follows.tally {i : Ideal w α} {q : Queue α} {b : Buffer w (Packet α)}
    (h : Follows t i q b) (f : Stats → Stats) : Follows t i (q.tally f) b :=
  ⟨h.window, h.pos, h.head, h.nbuf, h.seq, h.outSeq, h.sentUp, h.grown, h.lastSent⟩

theorem Follows.reduce {i : Ideal w α} {q : Queue α} {b : Buffer w (Packet α)}
    (h : Follows t i q b) : Follows t i q.reduce b :=
  { h with head := (Nat.mod_mod q.head sequenceNumberLimit).trans h.head }

theorem bumped_head {q : Queue α} {n : Nat}
    (h : q.head % sequenceNumberLimit = n % sequenceNumberLimit) :
    (q.head + 1) % sequenceNumberLimit = (n + 1) % sequenceNumberLimit := by
  simp only [sequenceNumberLimit] at *
  omega

/-- The slot the head points at holds what is due next. -/
theorem Follows.nbuf_head {i : Ideal w α} {q : Queue α} {b : Buffer w (Packet α)}
    (hw : 0 < w) (h : Follows t i q b) {slot : Nat} (hs : slot % w = b.next % w) :
    q.nbuf (slot % q.windowSize) = b.held b.next := by
  rw [h.window, hs]
  exact h.nbuf b.next ⟨Nat.le_refl _, by omega⟩

/-- Every other number of the window keeps its slot, and the number that enters the window
finds the freed one. -/
theorem Follows.nbuf_release {i : Ideal w α} {q : Queue α} {b : Buffer w (Packet α)}
    (h : Follows t i q b) {slot : Nat} (hs : slot % w = b.next % w) {n : Nat}
    (hn : b.release.next ≤ n ∧ n < b.release.next + w) :
    (retireSlot t q slot).nbuf (n % w) = b.release.held n := by
  rw [Buffer.release_next] at hn
  rw [retireSlot_nbuf, h.window, hs, Buffer.release_held, if_neg (by omega)]
  by_cases hlt : n < b.next + w
  · have apart : n % w ≠ b.next % w := by
      intro e
      have := window_inj (a := b.next) ⟨by omega, hlt⟩ ⟨Nat.le_refl _, by omega⟩ e
      omega
    rw [Function.update_of_ne apart]
    exact h.nbuf n ⟨by omega, hlt⟩
  · have e : n = b.next + w := by omega
    rw [e, Nat.add_mod_right, Function.update_self]
    cases hb : b.held (b.next + w) with
    | none => rfl
    | some x =>
      have := b.bounded _ x hb
      omega

theorem Follows.seq_release {i : Ideal w α} {q : Queue α} {b : Buffer w (Packet α)}
    (h : Follows t i q b) (n : Nat) (p : Packet α) (hn : b.release.held n = some p) :
    p.seq = n % sequenceNumberLimit := by
  rw [Buffer.release_held] at hn
  split at hn
  · cases hn
  · exact h.seq n p hn

/-- Retiring the slot the head points at releases what is due next. -/
theorem Follows.release {i : Ideal w α} {q : Queue α} {b : Buffer w (Packet α)}
    (hw : 0 < w) (h : Follows t i q b) {slot : Nat} (hs : slot % w = b.next % w) :
    Follows t i (retireSlot t q slot).bump b.release := by
  have here := h.nbuf_head hw hs
  have nbuf := fun n => h.nbuf_release (n := n) hs
  cases hb : b.held b.next with
  | none =>
    have due : b.due = [] := by simp [Buffer.due, hb]
    rw [retireSlot_none (here.trans hb)] at nbuf ⊢
    constructor
    case window => exact h.window
    case pos => exact congrArg (· + 1) h.pos
    case head => exact bumped_head h.head
    case nbuf => exact nbuf
    case seq => exact h.seq_release
    case outSeq => simpa only [Buffer.release_out, due, List.append_nil] using h.outSeq
    case sentUp =>
      rw [Buffer.release_out, due, List.append_nil]
      exact h.sentUp
    case grown => simpa only [Buffer.release_out, due, List.append_nil] using h.grown
    case lastSent =>
      simp only [Ideal.settle, Buffer.release_out, due, List.append_nil]
      exact h.lastSent
  | some p =>
    have due : b.due = [(b.next, p)] := by simp [Buffer.due, hb]
    rw [retireSlot_some (here.trans hb)] at nbuf ⊢
    constructor
    case window => exact h.window
    case pos => exact congrArg (· + 1) h.pos
    case head => exact bumped_head h.head
    case nbuf => exact nbuf
    case seq => exact h.seq_release
    case outSeq =>
      intro e he
      rw [Buffer.release_out, due] at he
      rcases List.mem_append.mp he with he | he
      · exact h.outSeq e he
      · rw [List.mem_singleton.mp he]
        exact h.seq b.next p hb
    case sentUp =>
      simp only [Buffer.release_out, due, List.map_append, List.map_cons, List.map_nil,
        Queue.bump, ← h.sentUp, h.pos]
    case grown =>
      rw [Buffer.release_out, List.length_append]
      exact Nat.le_add_right_of_le h.grown
    case lastSent =>
      have grown := h.grown
      simp only [Ideal.settle, Queue.bump, Buffer.release_out, due, List.length_append,
        List.length_singleton]
      rw [if_neg (by omega)]

theorem Follows.moveLoop {i : Ideal w α} (hw : 0 < w) (hd : w ∣ sequenceNumberLimit)
    (k : Nat) {q : Queue α} {b : Buffer w (Packet α)} (h : Follows t i q b) :
    Follows t i (moveLoop t k q) (b.advance k) := by
  induction k generalizing q b with
  | zero => exact h
  | succ k ih => exact ih (h.release hw (mod_window_of_dvd hd h.head))

theorem Follows.rodMoveWindow {i : Ideal w α} (hw : 0 < w) (hd : w ∣ sequenceNumberLimit)
    (k : Nat) {q : Queue α} {b : Buffer w (Packet α)} (h : Follows t i q b) :
    Follows t i (rodMoveWindow t q k) (b.advance k) :=
  (h.moveLoop hw hd k).reduce

/-- The loop walks along the slots of the numbers from the head on and stops at the first
one with nothing in it. -/
theorem Follows.retireLoop {i : Ideal w α} (hw : 0 < w) (fuel : Nat) {loc : Nat} {q : Queue α}
    {b : Buffer w (Packet α)} (h : Follows t i q b) (hl : loc = b.next % w)
    (hf : b.gap < fuel) : Follows t i (retireLoop t fuel loc q) b.drain := by
  induction fuel generalizing loc q b with
  | zero => omega
  | succ fuel ih =>
    have here : q.nbuf loc = b.held b.next := by
      rw [hl]
      exact h.nbuf b.next ⟨Nat.le_refl _, by omega⟩
    simp only [Rod.retireLoop, touch_nbuf, here]
    cases hb : b.held b.next with
    | none =>
      rw [Buffer.drain, Buffer.gap_eq_zero hb]
      exact h.touch loc
    | some p =>
      have gap := Buffer.gap_release hb
      rw [Buffer.drain, gap, Buffer.advance_succ]
      refine ih ((h.touch loc).release hw ?_) ?_ (by omega)
      · rw [hl, Nat.mod_mod]
      · rw [retireSlot_windowSize, touch_windowSize, h.window, hl, Buffer.release_next]
        exact succ_mod_window b.next hw

theorem Follows.retireRodQueue {i : Ideal w α} (hw : 0 < w) (hd : w ∣ sequenceNumberLimit)
    {q : Queue α} {b : Buffer w (Packet α)} (h : Follows t i q b) :
    Follows t i (retireRodQueue t q) b.drain := by
  refine (h.retireLoop hw _ ?_ ?_).reduce
  · rw [h.window]
    exact mod_window_of_dvd hd h.head
  · rw [h.window]
    exact Nat.lt_succ_of_le b.gap_le

/-- The queue counts nothing exactly when the buffer holds nothing. -/
theorem Follows.count_eq_zero {i : Ideal w α} {q : Queue α} {b : Buffer w (Packet α)}
    (hw : 0 < w) (h : Follows t i q b) (hb : Bookkept q) :
    q.count = 0 ↔ ∀ n, b.held n = none := by
  rw [hb.count, Multiset.card_eq_zero, Queue.held, contents_eq_zero, h.window]
  constructor
  · intro empty n
    cases hn : b.held n with
    | none => rfl
    | some p =>
      rw [← h.nbuf n (b.bounded n p hn), empty _ (Nat.mod_lt _ hw)] at hn
      cases hn
  · intro none j hj
    obtain ⟨n, hn, rfl⟩ := exists_in_window b.next hj
    rw [h.nbuf n hn, none n]

theorem Follows.flushLoop {i : Ideal w α} (hw : 0 < w) (hd : w ∣ sequenceNumberLimit)
    (fuel : Nat) {q : Queue α} {b : Buffer w (Packet α)} (h : Follows t i q b)
    (hb : Bookkept q) (hf : b.span ≤ fuel) : Follows t i (flushLoop t fuel q) b.flush := by
  induction fuel generalizing q b with
  | zero =>
    rw [Buffer.flush, Nat.le_zero.mp hf]
    exact h
  | succ fuel ih =>
    simp only [Rod.flushLoop]
    by_cases hc : q.count = 0
    · rw [if_pos hc, Buffer.flush, Buffer.span_eq_zero_iff.mpr ((h.count_eq_zero hw hb).mp hc)]
      exact h
    · obtain ⟨n, hn⟩ := not_forall.mp (fun none => hc ((h.count_eq_zero hw hb).mpr none))
      obtain ⟨p, hp⟩ := Option.ne_none_iff_exists'.mp hn
      have span := Buffer.span_release hp
      rw [if_neg hc, Buffer.flush, span, Buffer.advance_succ]
      exact ih (h.rodMoveWindow hw hd 1) (rodMoveWindow_steady hb 1).bookkept (by omega)

theorem Follows.flush {i : Ideal w α} (hw : 0 < w) (hd : w ∣ sequenceNumberLimit) {q : Queue α}
    {b : Buffer w (Packet α)} (h : Follows t i q b) (hb : Bookkept q) :
    Follows t i (mtlkFlushRodQueue t q) b.flush := by
  apply h.flushLoop hw hd _ hb
  rw [h.window]
  exact Nat.le_trans b.span_le (by omega)

/-- A packet whose number is free goes into its slot, and whatever it completes is released. -/
theorem Follows.store {i : Ideal w α} (hw : 0 < w) (hd : w ∣ sequenceNumberLimit)
    {q : Queue α} {b : Buffer w (Packet α)} (h : Follows t i q b) {n : Nat} {p : Packet α}
    (hn : b.next ≤ n ∧ n < b.next + w) (hp : p.seq = n % sequenceNumberLimit)
    (free : b.held n = none) : Follows t i (storePacket t q p) (b.put n p).drain := by
  have loc : p.seq % q.windowSize = n % w := by rw [hp, h.window, Nat.mod_mod_of_dvd n hd]
  have empty : q.nbuf (p.seq % q.windowSize) = none := by rw [loc, h.nbuf n hn, free]
  rw [storePacket_free empty]
  apply Follows.retireRodQueue hw hd
  apply Follows.tally
  constructor
  case window => exact h.window
  case pos =>
    rw [Buffer.put_next]
    exact h.pos
  case head =>
    rw [Buffer.put_next]
    exact h.head
  case nbuf =>
    intro m hm
    rw [Buffer.put_next] at hm
    rw [Buffer.put_held hn, loc]
    by_cases e : m = n
    · subst e
      rw [if_pos rfl]
      exact Function.update_self ..
    · rw [if_neg e]
      exact (Function.update_of_ne (fun he => e (window_inj hm hn he)) _ _).trans (h.nbuf m hm)
  case seq =>
    intro m r hr
    rw [Buffer.put_held hn] at hr
    split at hr
    · rename_i e
      cases hr
      rw [hp, e]
    · exact h.seq m r hr
  case outSeq =>
    rw [Buffer.put_out]
    exact h.outSeq
  case sentUp =>
    rw [Buffer.put_out]
    exact h.sentUp
  case grown =>
    rw [Buffer.put_out]
    exact h.grown
  case lastSent =>
    simp only [Ideal.settle, Buffer.put_out]
    exact h.lastSent

/-- A packet whose number is taken is freed, and the packet in its slot is the one that
took the number. -/
theorem Follows.duplicate {i : Ideal w α} (hd : w ∣ sequenceNumberLimit) {q : Queue α}
    {b : Buffer w (Packet α)} (h : Follows t i q b) {n : Nat} {p holder : Packet α}
    (hn : b.next ≤ n ∧ n < b.next + w) (hp : p.seq = n % sequenceNumberLimit)
    (taken : b.held n = some holder) :
    Follows t i (storePacket t q p) b ∧
      (storePacket t q p).drops = q.drops ++ [Drop.duplicate p holder] ∧
      (storePacket t q p).used = q.used ∧ holder.seq = p.seq := by
  have loc : p.seq % q.windowSize = n % w := by rw [hp, h.window, Nat.mod_mod_of_dvd n hd]
  have full : q.nbuf (p.seq % q.windowSize) = some holder := by rw [loc, h.nbuf n hn, taken]
  rw [storePacket_taken full]
  refine ⟨⟨h.window, h.pos, h.head, h.nbuf, h.seq, h.outSeq, h.sentUp, h.grown, h.lastSent⟩,
    rfl, rfl, ?_⟩
  rw [h.seq n holder taken, hp]

/-! ## Between calls -/

structure Matches (i : Ideal w α) (q : Queue α) : Prop where
  used : q.used = i.isOpen
  bookkept : Bookkept q
  window : q.windowSize = w
  pos : q.pos = i.buffer.next
  head : q.head % sequenceNumberLimit = i.buffer.next % sequenceNumberLimit
  nbuf : ∀ n, i.buffer.next ≤ n ∧ n < i.buffer.next + w → q.nbuf (n % w) = i.buffer.held n
  seq : ∀ n p, i.buffer.held n = some p → p.seq = n % sequenceNumberLimit
  outSeq : ∀ e ∈ i.buffer.out, e.2.seq = e.1 % sequenceNumberLimit
  sentUp : q.sentUp = i.buffer.out.map (fun e => ⟨some e.1, e.2⟩) ++
    i.legacy.map (fun p => ⟨none, p⟩)
  legacy : i.isOpen = true → i.legacy = []
  lastSent : q.lastSent = i.lastSent
  duplicate : ∀ p holder, Drop.duplicate p holder ∈ q.drops → holder.seq = p.seq

theorem Matches.follows {i : Ideal w α} {q : Queue α} (h : Matches i q) (ho : i.isOpen = true)
    (t : Nat) : Follows t i q i.buffer where
  window := h.window
  pos := h.pos
  head := h.head
  nbuf := h.nbuf
  seq := h.seq
  outSeq := h.outSeq
  sentUp := by rw [h.sentUp, h.legacy ho, List.map_nil, List.append_nil]
  grown := Nat.le_refl _
  lastSent := by rw [h.lastSent, Ideal.settle, if_pos rfl]

theorem Follows.matches {i : Ideal w α} {q : Queue α} {b : Buffer w (Packet α)}
    (h : Follows t i q b) (hu : q.used = i.isOpen) (hb : Bookkept q) (hl : i.legacy = [])
    (dup : ∀ p holder, Drop.duplicate p holder ∈ q.drops → holder.seq = p.seq) :
    Matches (i.settle t b) q where
  used := hu
  bookkept := hb
  window := h.window
  pos := h.pos
  head := h.head
  nbuf := h.nbuf
  seq := h.seq
  outSeq := h.outSeq
  sentUp := by
    rw [h.sentUp]
    simp only [Ideal.settle, hl, List.map_nil, List.append_nil]
  legacy := fun _ => hl
  lastSent := h.lastSent
  duplicate := dup

theorem storePacket_free_keeps {q : Queue α} (hb : Bookkept q) {p : Packet α}
    (hn : q.nbuf (p.seq % q.windowSize) = none) :
    (storePacket t q p).used = q.used ∧ (storePacket t q p).drops = q.drops := by
  have steady := retireRodQueue_steady (t := t) ((stored_stepped hb hn).bookkept.tally
    fun s => { s with queued := s.queued + 1 })
  rw [storePacket_free hn]
  exact ⟨steady.used, steady.drops⟩

/-- The second half of a packet's way: it is stored or found to be a duplicate. -/
theorem Follows.packet {i : Ideal w α} (hw : 0 < w) (hd : w ∣ sequenceNumberLimit)
    {q : Queue α} {b : Buffer w (Packet α)} (h : Follows t i q b) {n : Nat} {p : Packet α}
    (hn : b.next ≤ n ∧ n < b.next + w) (hp : p.seq = n % sequenceNumberLimit)
    (hu : q.used = i.isOpen) (hb : Bookkept q) (hl : i.legacy = [])
    (dup : ∀ r holder, Drop.duplicate r holder ∈ q.drops → holder.seq = r.seq) :
    Matches (match b.held n with
      | none => i.settle t (b.put n p).drain
      | some _ => i.settle t b) (storePacket t q p) := by
  have book := (storePacket_stepped (t := t) hb p).bookkept
  cases hh : b.held n with
  | none =>
    have empty : q.nbuf (p.seq % q.windowSize) = none := by
      rw [hp, h.window, Nat.mod_mod_of_dvd n hd, h.nbuf n hn, hh]
    obtain ⟨used, drops⟩ := storePacket_free_keeps (t := t) hb empty
    exact (h.store hw hd hn hp hh).matches (used.trans hu) book hl (by rw [drops]; exact dup)
  | some holder =>
    obtain ⟨follows, drops, used, same⟩ := h.duplicate hd hn hp hh
    apply follows.matches (used.trans hu) book hl
    intro r x hx
    rw [drops] at hx
    rcases List.mem_append.mp hx with hx | hx
    · exact dup r x hx
    · cases List.mem_singleton.mp hx
      exact same

theorem Matches.packet {i : Ideal w α} {q : Queue α} (hw : 0 < w)
    (hd : w ∣ sequenceNumberLimit) (h : Matches i q) {p : Packet α}
    (hp : p.seq < sequenceNumberLimit) :
    Matches (i.packet t p) (mtlkReorderPacket t q p).1 := by
  have hb := h.bookkept
  unfold Ideal.packet
  cases ho : i.isOpen with
  | false =>
    rw [reorderPacket_unused (h.used.trans ho), if_neg (by simp)]
    refine ⟨h.used.trans ho, ⟨hb.window, hb.count, hb.beyond, hb.slot⟩, h.window, h.pos, h.head,
      h.nbuf, h.seq, h.outSeq, ?_, by simp, h.lastSent, h.duplicate⟩
    simp only [h.sentUp, List.map_append, List.map_cons, List.map_nil, List.append_assoc]
  | true =>
    have hu := h.used.trans ho
    have number := add_seqDistance i.buffer.next hp
    have distance := seqDistance_congr h.head p.seq
    simp only [↓reduceIte]
    by_cases old : sequenceNumberLimit / 2 < seqDistance i.buffer.next p.seq
    · rw [if_pos old, reorderPacket_tooOld hu (by rwa [distance])]
      refine ⟨h.used, ⟨hb.window, hb.count, hb.beyond, hb.slot⟩, h.window, h.pos, h.head, h.nbuf,
        h.seq, h.outSeq, h.sentUp, h.legacy, h.lastSent, ?_⟩
      intro r x hx
      rcases List.mem_append.mp hx with hx | hx
      · exact h.duplicate r x hx
      · cases List.mem_singleton.mp hx
    · rw [if_neg old]
      by_cases ahead : w ≤ seqDistance i.buffer.next p.seq
      · rw [reorderPacket_ahead hu (by rwa [distance]) (by rwa [distance, h.window]), distance,
          h.window, ← Nat.sub_add_comm ahead]
        have moved := rodMoveWindow_steady (t := t)
          (hb.tally fun s => { s with overflows := s.overflows + 1 })
          (seqDistance i.buffer.next p.seq + 1 - w)
        exact (((h.follows ho t).tally _).rodMoveWindow hw hd _).packet hw hd
          (by rw [Buffer.advance_next]; omega) number.symm (moved.used.trans h.used)
          moved.bookkept (h.legacy ho) (by rw [moved.drops]; exact h.duplicate)
      · rw [reorderPacket_inside hu (by rwa [distance]) (by rwa [distance, h.window]),
          show seqDistance i.buffer.next p.seq + 1 - w = 0 by omega, Buffer.advance_zero]
        exact (h.follows ho t).packet hw hd (by omega) number.symm h.used hb (h.legacy ho)
          h.duplicate

theorem Matches.bar {i : Ideal w α} {q : Queue α} (hw : 0 < w) (hd : w ∣ sequenceNumberLimit)
    (h : Matches i q) (ssn : Nat) : Matches (i.bar t ssn) (mtlkRodProcessBar t q ssn).1 := by
  unfold Ideal.bar mtlkRodProcessBar
  cases ho : i.isOpen with
  | false =>
    have hu := h.used.trans ho
    simp only [hu, Bool.false_eq_true, ↓reduceIte]
    exact h
  | true =>
    rw [if_pos rfl, if_pos (h.used.trans ho), seqDistance_congr h.head ssn]
    simp only
    split
    · exact h
    · have moved := rodMoveWindow_steady (t := t) h.bookkept (seqDistance i.buffer.next ssn)
      have retired := retireRodQueue_steady (t := t) moved.bookkept
      have follows := ((h.follows ho t).rodMoveWindow hw hd
        (seqDistance i.buffer.next ssn)).retireRodQueue hw hd
      exact follows.matches ((retired.used.trans moved.used).trans h.used) retired.bookkept
        (h.legacy ho) (by rw [retired.drops, moved.drops]; exact h.duplicate)

theorem Matches.flush {i : Ideal w α} {q : Queue α} (hw : 0 < w) (hd : w ∣ sequenceNumberLimit)
    (h : Matches i q) (ho : i.isOpen = true) :
    Matches (i.settle t i.buffer.flush) (mtlkFlushRodQueue t q) := by
  have steady := flush_steady (t := t) h.bookkept
  exact ((h.follows ho t).flush hw hd h.bookkept).matches (steady.used.trans h.used)
    steady.bookkept (h.legacy ho) (by rw [steady.drops]; exact h.duplicate)

theorem Matches.timer {i : Ideal w α} {q : Queue α} (hw : 0 < w) (hd : w ∣ sequenceNumberLimit)
    (h : Matches i q) (timeout : Nat) :
    Matches (i.timer t timeout) (mtlkHandleRodQueueTimer t timeout q) := by
  unfold Ideal.timer mtlkHandleRodQueueTimer
  cases ho : i.isOpen with
  | false =>
    have hu := h.used.trans ho
    simp only [hu, Bool.false_eq_true, ↓reduceIte, Bool.false_and]
    exact h
  | true =>
    have idle : q.count = 0 ↔ i.buffer.span = 0 :=
      ((h.follows ho t).count_eq_zero hw h.bookkept).trans Buffer.span_eq_zero_iff.symm
    simp only [h.used, ho, h.lastSent, Bool.true_and, Bool.and_eq_true, decide_eq_true_eq, ne_eq,
      idle]
    split
    · exact h.flush hw hd ho
    · exact h

theorem Matches.clear {i : Ideal w α} {q : Queue α} (hw : 0 < w) (hd : w ∣ sequenceNumberLimit)
    (h : Matches i q) : Matches (i.clear t) (mtlkClearRodQueue t q) := by
  unfold Ideal.clear mtlkClearRodQueue
  cases ho : i.isOpen with
  | false =>
    have hu := h.used.trans ho
    simp only [hu, Bool.false_eq_true, ↓reduceIte]
    exact h
  | true =>
    rw [if_pos rfl, if_pos (h.used.trans ho)]
    have flushed := h.flush (t := t) hw hd ho
    have hb := flushed.bookkept
    exact ⟨rfl, ⟨hb.window, hb.count, hb.beyond, hb.slot⟩, flushed.window, flushed.pos,
      flushed.head, flushed.nbuf, flushed.seq, flushed.outSeq, flushed.sentUp,
      fun _ => h.legacy ho, flushed.lastSent, flushed.duplicate⟩

/-- One call of the queue is one step of the ideal buffer. -/
theorem Matches.step {i : Ideal w α} {q : Queue α} (hw : 0 < w) (hd : w ∣ sequenceNumberLimit)
    (h : Matches i q) {op : Op α} (hv : op.Valid) : Matches (i.step op) (step q op) := by
  cases op with
  | packet t p => exact h.packet hw hd hv
  | bar t ssn => exact h.bar hw hd ssn
  | timer t timeout => exact h.timer hw hd timeout
  | clear t => exact h.clear hw hd

theorem fresh_matches (hw : 0 < w) (ssn : Nat) :
    Matches (Ideal.start α t w ssn) (fresh α t w ssn) where
  used := rfl
  bookkept := fresh_bookkept hw ssn
  window := rfl
  pos := rfl
  head := rfl
  nbuf := fun _ _ => rfl
  seq := fun _ _ h => by cases h
  outSeq := fun _ h => by cases h
  sentUp := rfl
  legacy := fun _ => rfl
  lastSent := rfl
  duplicate := fun _ _ h => by cases h

/-- Whole runs of the queue are runs of the ideal buffer. -/
theorem run_matches (hd : w ∣ sequenceNumberLimit) (ssn : Nat) {ops : List (Op α)}
    (hv : ∀ op ∈ ops, op.Valid) :
    Matches ((Ideal.start α t w ssn).run ops) (run (fresh α t w ssn) ops) := by
  have hw : 0 < w := Nat.pos_of_dvd_of_pos hd (by decide)
  exact List.foldl_rel (r := fun i q => Matches i q) (fresh_matches hw ssn)
    (fun op ho i q h => h.step hw hd (hv op ho))

end Wave300.Rod
