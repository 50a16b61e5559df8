import Wave300.Lib.Fifo
import Wave300.Txmm.Partition

/-!
# The timeout scan

The scan walks through a queue and takes out the blocks that have expired, either by putting the
first block in the place of one that is taken out or by moving those before it up. It looks at
each block of the queue once, unless the queue is full, for then its end is its beginning.
-/

namespace Wave300.Txmm

open Wave300.Lib

variable {n : Nat} {μ σ κ ν : Type} {s : Base n μ σ κ ν} {b : Fin n} {q : Que} {now : UInt32}
  {preserveOrder : Bool}

namespace Base

/-- The body of the scan's loop. -/
def scanBlock (now : UInt32) (q : Que) (preserveOrder : Bool) (s : Base n μ σ κ ν) (b : Fin n) :
    Base n μ σ κ ν :=
  if Expired now (s.blocks b) then
    (s.delBufFromQue (some q) b preserveOrder).putBuf .timedOut b
  else s

/-- The blocks that the loop looks at, one after the other. -/
def examinedLoop (now : UInt32) (q : Que) (preserveOrder : Bool) :
    Nat → Nat → Base n μ σ κ ν → List (Fin n)
  | 0, _, _ => []
  | fuel + 1, i, s =>
    if i = (s.rings.ring q).toIdx then []
    else
      let b := (s.rings.ring q).ptr i
      b :: examinedLoop now q preserveOrder fuel (incWrap n i) (s.scanBlock now q preserveOrder b)

def examined (s : Base n μ σ κ ν) (now : UInt32) (q : Que) (preserveOrder : Bool) :
    List (Fin n) :=
  examinedLoop now q preserveOrder n (s.rings.ring q).fromIdx s

end Base

open Base

/-- Each block of the queue is looked at once, and those that have expired are moved to
`TIMED_OUT`. More rounds would change nothing. -/
structure Complete (now : UInt32) (q : Que) (preserveOrder : Bool) (s : Base n μ σ κ ν) : Prop where
  once : (s.examined now q preserveOrder).Nodup
  all : ∀ b, b ∈ s.examined now q preserveOrder ↔ s.InRing q b
  expired : ∀ b, s.InRing q b →
    ((s.scan now q preserveOrder).InRing .timedOut b ↔ Expired now (s.blocks b))
  kept : ∀ b, s.InRing q b →
    ((s.scan now q preserveOrder).InRing q b ↔ ¬ Expired now (s.blocks b))
  ends : ∀ more, scanLoop now q preserveOrder (n + more) (s.rings.ring q).fromIdx s =
    s.scan now q preserveOrder

theorem scanLoop_succ {fuel i : Nat} (more : i ≠ (s.rings.ring q).toIdx) :
    scanLoop now q preserveOrder (fuel + 1) i s =
      scanLoop now q preserveOrder fuel (incWrap n i)
        (s.scanBlock now q preserveOrder ((s.rings.ring q).ptr i)) := by
  rw [scanLoop, if_neg more]
  rfl

theorem examinedLoop_succ {fuel i : Nat} (more : i ≠ (s.rings.ring q).toIdx) :
    examinedLoop now q preserveOrder (fuel + 1) i s =
      (s.rings.ring q).ptr i :: examinedLoop now q preserveOrder fuel (incWrap n i)
        (s.scanBlock now q preserveOrder ((s.rings.ring q).ptr i)) := by
  rw [examinedLoop, if_neg more]

theorem scanLoop_of_end {fuel i : Nat} (last : i = (s.rings.ring q).toIdx) :
    scanLoop now q preserveOrder fuel i s = s := by
  cases fuel with
  | zero => rfl
  | succ fuel => rw [scanLoop, if_pos last]

theorem examinedLoop_of_end {fuel i : Nat} (last : i = (s.rings.ring q).toIdx) :
    examinedLoop now q preserveOrder fuel i s = [] := by
  cases fuel with
  | zero => rfl
  | succ fuel => rw [examinedLoop, if_pos last]

/-- Where the walk stands after it has passed `p` entries of the window. -/
def Base.place (s : Base n μ σ κ ν) (q : Que) (p : Nat) : Nat :=
  wrap n ((s.rings.ring q).fromIdx + p)

/-- A block that is taken out leaves the walk in front of the same blocks. -/
theorem expire_walk (preserveOrder : Bool) (h : Sound s) (apart : q ≠ .timedOut) {p : Nat}
    (lt : p < (s.rings.ring q).total) (b_eq : b = (s.rings.ring q).ptr (s.place q p)) :
    let s' := (s.delBufFromQue (some q) b preserveOrder).putBuf .timedOut b
    (s'.rings.ring q).total = (s.rings.ring q).total - 1 ∧
      incWrap n (s.place q p) = s'.place q p ∧
      ((s'.rings.ring q).toList n).drop p = ((s.rings.ring q).toList n).drop (p + 1) := by
  have valid := h.seated.valid q
  obtain ⟨holds, at_p⟩ := valid.holds_wrap lt
  obtain ⟨home, idx⟩ := h.seated.held q _ holds
  have place : s.place q p = wrap n ((s.rings.ring q).fromIdx + p) := rfl
  rw [← place] at at_p home idx
  rw [← b_eq] at home idx
  have found := (h.seated.seat b q home).2
  have same : ((s.delBufFromQue (some q) b preserveOrder).putBuf .timedOut b).rings.ring q =
      (s.rings.unlink n q b preserveOrder).ring q :=
    Function.update_of_ne apart _ _
  have dropped := h.seated.drop_unlink preserveOrder home
  rw [idx, at_p] at dropped
  refine ⟨?_, ?_, ?_⟩
  · rw [same, Rings.unlink_total preserveOrder found]
  · simp only [Base.place, same, Rings.unlink_fromIdx preserveOrder found]
    exact (valid.incWrap_wrap (lt.trans_le valid.total_le)).2
  · rw [same, dropped]

/-- The loop examines each block from its place on, and does to it what its body does. -/
theorem scanLoop_walks (now : UInt32) (preserveOrder : Bool) (ne : q ≠ .free)
    (apart : q ≠ .timedOut) (h : Sound s) (room : (s.rings.ring q).total < n) (fuel : Nat) {p : Nat}
    (le : p ≤ (s.rings.ring q).total)
    (enough : (s.rings.ring q).total - p ≤ fuel) :
    scanLoop now q preserveOrder fuel (s.place q p) s =
        (((s.rings.ring q).toList n).drop p).foldl (scanBlock now q preserveOrder) s ∧
      examinedLoop now q preserveOrder fuel (s.place q p) s =
        ((s.rings.ring q).toList n).drop p := by
  induction fuel generalizing s p with
  | zero =>
    have passed : ((s.rings.ring q).toList n).drop p = [] := by
      apply List.drop_of_length_le
      rw [Ring.length_toList]
      omega
    rw [passed]
    exact ⟨rfl, rfl⟩
  | succ fuel ih =>
    have valid := h.seated.valid q
    by_cases last : p = (s.rings.ring q).total
    · have ends : s.place q p = (s.rings.ring q).toIdx := (valid.wrap_eq_to room le).2 last
      have passed : ((s.rings.ring q).toList n).drop p = [] := by
        apply List.drop_of_length_le
        rw [Ring.length_toList, last]
      rw [scanLoop_of_end ends, examinedLoop_of_end ends, passed]
      exact ⟨rfl, rfl⟩
    · have more : s.place q p ≠ (s.rings.ring q).toIdx := by
        intro ends
        exact last ((valid.wrap_eq_to room le).1 ends)
      have lt : p < (s.rings.ring q).total := by omega
      have here : ((s.rings.ring q).toList n).drop p =
          (s.rings.ring q).ptr (s.place q p) :: ((s.rings.ring q).toList n).drop (p + 1) := by
        rw [List.drop_eq_getElem_cons (by rwa [Ring.length_toList]), Ring.getElem_toList]
        rfl
      rw [scanLoop_succ more, examinedLoop_succ more, here, List.foldl_cons]
      generalize e : (s.rings.ring q).ptr (s.place q p) = b
      by_cases expired : Expired now (s.blocks b)
      · have body : s.scanBlock now q preserveOrder b =
            (s.delBufFromQue (some q) b preserveOrder).putBuf .timedOut b := if_pos expired
        have home : s.rings.home b = some q := by
          rw [← e]
          exact (h.seated.held q _ (valid.holds_wrap lt).1).1
        obtain ⟨total, next, rest⟩ :=
          expire_walk preserveOrder h apart lt e.symm
        have walked := ih (h.expire home ne preserveOrder) (p := p) (by omega) (by omega) (by omega)
        rw [body, next]
        rw [rest] at walked
        exact ⟨walked.1, congrArg (b :: ·) walked.2⟩
      · have body : s.scanBlock now q preserveOrder b = s := if_neg expired
        have next : incWrap n (s.place q p) = s.place q (p + 1) :=
          (valid.incWrap_wrap (lt.trans room)).1
        have walked := ih h room (p := p + 1) lt (by omega)
        rw [body, next]
        exact ⟨walked.1, congrArg (b :: ·) walked.2⟩

/-- The scan does to each block of the queue what its body does, and walks no further. -/
theorem scan_walks (now : UInt32) (preserveOrder : Bool) (ne : q ≠ .free) (apart : q ≠ .timedOut)
    (h : Sound s) (room : (s.rings.ring q).total < n) (more : Nat) :
    scanLoop now q preserveOrder (n + more) (s.rings.ring q).fromIdx s =
        ((s.rings.ring q).toList n).foldl (scanBlock now q preserveOrder) s ∧
      examinedLoop now q preserveOrder (n + more) (s.rings.ring q).fromIdx s =
        (s.rings.ring q).toList n := by
  have first : s.place q 0 = (s.rings.ring q).fromIdx := by
    rw [Base.place, Nat.add_zero, wrap, if_pos (h.seated.valid q).from_lt]
  have walked := scanLoop_walks now preserveOrder (p := 0) ne apart h room (n + more)
    (Nat.zero_le _) (by omega)
  rwa [first, List.drop_zero] at walked

/-- Where the blocks of a list are after each has been tested. -/
theorem foldl_scanBlock_home (ne : q ≠ .free) (h : Sound s) {l : List (Fin n)} (nodup : l.Nodup)
    (home : ∀ c ∈ l, s.rings.home c = some q) (b : Fin n) :
    (l.foldl (scanBlock now q preserveOrder) s).rings.home b =
      if b ∈ l ∧ Expired now (s.blocks b) then some .timedOut else s.rings.home b := by
  induction l generalizing s with
  | nil => rw [List.foldl_nil, if_neg (by simp)]
  | cons c l ih =>
    obtain ⟨notin, nodup⟩ := List.nodup_cons.1 nodup
    have was := home c List.mem_cons_self
    rw [List.foldl_cons]
    by_cases expired : Expired now (s.blocks c)
    · have body : s.scanBlock now q preserveOrder c =
          (s.delBufFromQue (some q) c preserveOrder).putBuf .timedOut c := if_pos expired
      have moved := h.expire_home was preserveOrder
      have others {d : Fin n} (apart : d ≠ c) : ((s.delBufFromQue (some q) c preserveOrder).putBuf
          .timedOut c).rings.home d = s.rings.home d := by
        rw [moved, Function.update_of_ne apart]
      rw [body, ih (h.expire was ne preserveOrder) nodup]
      · by_cases same : b = c
        · subst same
          rw [moved, Function.update_self, ite_self, if_pos ⟨List.mem_cons_self, expired⟩]
        · rw [others same]
          simp only [List.mem_cons, same, false_or]
          rfl
      · intro d mem
        have apart : d ≠ c := by
          rintro rfl
          exact notin mem
        rw [others apart]
        exact home d (List.mem_cons_of_mem _ mem)
    · have body : s.scanBlock now q preserveOrder c = s := if_neg expired
      rw [body, ih h nodup fun d mem => home d (List.mem_cons_of_mem _ mem)]
      by_cases same : b = c
      · subst same
        simp only [expired, and_false, if_false]
      · simp only [List.mem_cons, same, false_or]

theorem scan_complete (ne : q ≠ .free) (apart : q ≠ .timedOut) (h : Sound s)
    (room : (s.rings.ring q).total < n) : Complete now q preserveOrder s := by
  have walks := scan_walks now preserveOrder ne apart h room
  have scanned : s.scan now q preserveOrder = _ := (walks 0).1
  have examined : s.examined now q preserveOrder = _ := (walks 0).2
  have sound : Sound (s.scan now q preserveOrder) :=
    (Sound.scan (P := fun _ => True) now preserveOrder ne apart (by simp) h trivial).1
  have home (b : Fin n) (was : s.rings.home b = some q) :
      (s.scan now q preserveOrder).rings.home b =
        if Expired now (s.blocks b) then some .timedOut else some q := by
    rw [scanned, foldl_scanBlock_home ne h h.seated.nodup_toList fun c => h.seated.mem_toList.1]
    simp only [h.seated.mem_toList, was, true_and]
  constructor
  case once =>
    rw [examined]
    exact h.seated.nodup_toList
  case all =>
    intro b
    rw [examined, h.seated.mem_toList, inRing_iff h.seated]
  case expired =>
    intro b there
    rw [inRing_iff sound.seated, home b ((inRing_iff h.seated).1 there)]
    split
    next expired => simp [expired]
    next fresh => simp [fresh, apart]
  case kept =>
    intro b there
    rw [inRing_iff sound.seated, home b ((inRing_iff h.seated).1 there)]
    split
    next expired => simp [expired, Ne.symm apart]
    next fresh => simp [fresh]
  case ends =>
    intro more
    rw [(walks more).1, scanned]

/-- Of a full queue no block is looked at. -/
theorem not_complete_of_full (h : Sound s) (full : (s.rings.ring q).total = n) :
    ¬ Complete now q preserveOrder s := by
  intro complete
  have valid := h.seated.valid q
  have none : s.examined now q preserveOrder = [] :=
    examinedLoop_of_end (valid.from_eq_to_of_full full)
  have holds := valid.holds_from (by have := valid.from_lt; omega)
  have first := (complete.all _).2 ⟨_, holds, rfl⟩
  rw [none] at first
  cases first

section
variable [DecidableEq μ] [DecidableEq σ] [NeZero n] {maxPayloadSize : UInt16} {pool : List σ}

/-- The scan of `SENT` or `QUEUED`, whether or not it keeps the order, looks at each block once
and moves just those that have expired if and only if the queue is not full. -/
theorem scan_complete_iff (run : Runs step Op.Careful (Base.init n maxPayloadSize pool) s)
    (scanned : q = .sent ∨ q = .queued) (now : UInt32) (preserveOrder : Bool) :
    Complete now q preserveOrder s ↔ (s.rings.ring q).total < n := by
  have h := run_sound run
  constructor
  · intro complete
    apply Nat.lt_of_le_of_ne (h.seated.valid q).total_le
    intro full
    exact not_complete_of_full h full complete
  · intro room
    obtain rfl | rfl := scanned
    · exact scan_complete (by decide) (by decide) h room
    · exact scan_complete (by decide) (by decide) h room

end

/-- Of two messages that are at the hardware one has expired, and there is room for a third. -/
theorem scan_complete_iff_twoSent : Complete 100 .sent false ([.start, .getEmptyData 1 (),
    .msgSend 1 ⟨5, 10, (), 20⟩ 0, .getEmptyData 2 (), .msgSend 2 ⟨6, 10, (), 500⟩ 0].foldl step
      (Base.init 3 64 [7, 8] : Base 3 Nat Nat Unit Unit)) := by
  refine (scan_complete_iff (Runs.of_allowed ?_) (.inl rfl) 100 false).2 (by decide)
  refine ⟨⟨trivial, trivial, trivial⟩, ⟨trivial, trivial, trivial⟩,
    ⟨⟨⟨0, ?_⟩, ?_⟩, trivial, trivial⟩, ⟨trivial, trivial, trivial⟩,
    ⟨⟨⟨1, ?_⟩, ?_⟩, trivial, trivial⟩, trivial⟩
  all_goals decide

/-- With one block, which is at the hardware: the queue is full and the message it is sent for
is never found to have timed out. -/
theorem scan_misses_full_queue :
    ∃ s : Base 1 Nat Nat Unit Unit, Runs step Op.Careful (Base.init 1 64 [7]) s ∧
      s.InRing .sent 0 ∧ Expired 100 (s.blocks 0) ∧ s.examined 100 .sent false = [] ∧
      s.scan 100 .sent false = s ∧ ¬ Complete 100 .sent false s := by
  have run : Runs step Op.Careful (Base.init 1 64 [7])
      ([.start, .getEmptyData 1 (), .msgSend 1 ⟨5, 10, (), 20⟩ 0].foldl step
        (Base.init 1 64 [7] : Base 1 Nat Nat Unit Unit)) := by
    apply Runs.of_allowed
    refine ⟨⟨trivial, trivial, trivial⟩, ⟨trivial, trivial, trivial⟩,
      ⟨⟨⟨0, ?_⟩, ?_⟩, trivial, trivial⟩, trivial⟩
    all_goals decide
  have h := run_sound run
  refine ⟨_, run, (inRing_iff h.seated).2 (by decide), by decide, by decide, ?_, ?_⟩
  · exact scanLoop_of_end (by decide)
  · exact not_complete_of_full h (by decide)

end Wave300.Txmm
