import Wave300.Sq.Conservation

/-!
# Admission to the send queue

`mtlk_sq_enqueue` counts a packet before `mtlk_sq_enqueue_pkt` compares the size of the category
with its limit, so the packet takes one of the places that it asks for. The peer's own list is
compared before the packet is in it.
-/

namespace Wave300.Sq.Queue

open Wave300.Lib

variable {σ ν : Type}

/-! ## What is queued, and what else is counted -/

/-- The group is of the category. -/
def ofCategory (s : Queue σ ν) (ac : Ac) (g : Nat) : Bool := (s.extra g).any (·.ac = ac)

/-- A clone of the group is in a list. -/
def inQueue (s : Queue σ ν) (g : Nat) : Bool := 0 < s.inLists fun pkt => pkt.rmcast = some g

/-- How many packets of a category are queued. The clones of a group count once. -/
def occupied (s : Queue σ ν) (ac : Ac) : Nat :=
  s.plain ac + (List.range s.extras).countP fun g => s.ofCategory ac g && s.inQueue g

/-- How many places in the size of a category the calls on the way hold: for a packet that they
have counted, or for a group of which no clone is in a list. -/
def reserved (s : Queue σ ν) (ac : Ac) : Nat :=
  s.underway ac + (List.range s.extras).countP fun g => s.ofCategory ac g && !s.inQueue g

variable {s : Queue σ ν} {held : Multiset Token} {p : Ctx σ ν} {ac : Ac}

theorem Sound.liveGroups (h : s.Sound held) (ac : Ac) :
    s.liveGroups ac = (List.range s.extras).countP (s.ofCategory ac) := by
  have entries : contents s.extra s.extras = ((List.range s.extras).filterMap s.extra : List _) :=
    rfl
  rw [Queue.liveGroups, entries, Multiset.coe_countP, List.countP_filterMap]
  apply List.countP_congr
  intro g _
  cases found : s.extra g with
  | none => simp [ofCategory, found]
  | some e =>
    have live := h.live g e found
    simp [ofCategory, found, live]

/-- The size of a category, between the steps. -/
theorem Steady.size_eq (h : s.Steady 0) (ac : Ac) :
    s.size ac = ((s.occupied ac + s.reserved ac : Nat) : Int) := by
  have split := List.countP_eq_countP_filter_add (List.range s.extras) (s.ofCategory ac) s.inQueue
  rw [List.countP_filter, List.countP_filter] at split
  rw [h.size ac, h.sound.liveGroups, occupied, reserved]
  omega

/-! ## The call -/

variable [DecidableEq σ] [DecidableEq ν]

/-- `mtlk_sq_enqueue`, with nothing else between its steps. -/
def sqEnqueue (s : Queue σ ν) (nic : ν) (dstSta : Option σ) (vap : ν) (urgent : Bool) (ac : Ac)
    (front : Bool) : Queue σ ν × Err :=
  let pkt : Pkt σ ν := ⟨s.pkts, dstSta, vap, urgent, none⟩
  let (ac, front) := switchIfUrgent pkt ac front
  match (s.allocPkt.sizeInc ac).enqueuePkt (peerCtx nic pkt) pkt ac front with
  | (s, .ok) => (s, .ok)
  | (s, res) => ((s.leaveOut pkt).sizeDec ac, res)

theorem begin_finish (s : Queue σ ν) (c : Call σ ν) : (s.begin c).finish c = s := by
  simp [begin, finish]

theorem enqueuePkt_outcome (s : Queue σ ν) (p : Ctx σ ν) (pkt : Pkt σ ν) (ac : Ac)
    (front : Bool) : (∃ s', s.enqueuePkt p pkt ac front = (s', .ok)) ∨
      s.enqueuePkt p pkt ac front = (s, .noResources) := by
  rw [enqueuePkt]
  split
  · exact .inr rfl
  · exact .inl ⟨_, rfl⟩

/-- A call whose turn has come goes on. -/
theorem step_resume_begin (s : Queue σ ν) (c : Call σ ν) :
    (s.begin c).step (.resume c) = s.resume c := by
  have called : c ∈ (s.begin c).calls := Multiset.mem_cons_self ..
  rw [step, if_pos called, begin_finish]

section
variable {s' : Queue σ ν} {nic : ν} {pkt : Pkt σ ν} {front : Bool}

theorem resume_enqueue_ok (ok : s.enqueuePkt (peerCtx nic pkt) pkt ac front = (s', .ok)) :
    s.resume (.enqueue nic pkt ac front) = s' := by
  simp only [resume, ok]

theorem resume_enqueue_refused
    (refused : s.enqueuePkt (peerCtx nic pkt) pkt ac front = (s, .noResources)) :
    s.resume (.enqueue nic pkt ac front) = (s.leaveOut pkt).begin (.refused ac) := by
  simp only [resume, refused]

end

/-- The call is a run of its steps. -/
theorem sqEnqueue_run (s : Queue σ ν) (nic : ν) (dstSta : Option σ) (vap : ν) (urgent : Bool)
    (ac : Ac) (front : Bool)
    (listed : s.Listed (peerCtx nic (⟨s.pkts, dstSta, vap, urgent, none⟩ : Pkt σ ν))) :
    ∃ events : List (Event σ ν),
      (s.sqEnqueue nic dstSta vap urgent ac front).1 = events.foldl step s := by
  generalize new : (⟨s.pkts, dstSta, vap, urgent, none⟩ : Pkt σ ν) = pkt at listed
  rcases q : switchIfUrgent pkt ac front with ⟨ac', front'⟩
  have begun : s.step (.enqueue nic dstSta vap urgent ac front) =
      (s.allocPkt.sizeInc ac').begin (.enqueue nic pkt ac' front') := by
    simp only [step, new, q]
    exact if_pos listed
  have called : s.sqEnqueue nic dstSta vap urgent ac front =
      match (s.allocPkt.sizeInc ac').enqueuePkt (peerCtx nic pkt) pkt ac' front' with
      | (s, .ok) => (s, .ok)
      | (s, res) => ((s.leaveOut pkt).sizeDec ac', res) := by
    simp only [sqEnqueue, new, q]
  obtain ⟨s', ok⟩ | refused :=
    (s.allocPkt.sizeInc ac').enqueuePkt_outcome (peerCtx nic pkt) pkt ac' front'
  · refine ⟨[.enqueue nic dstSta vap urgent ac front, .resume (.enqueue nic pkt ac' front')], ?_⟩
    rw [called, ok, List.foldl_cons, List.foldl_cons, List.foldl_nil, begun, step_resume_begin,
      resume_enqueue_ok ok]
  · refine ⟨[.enqueue nic dstSta vap urgent ac front, .resume (.enqueue nic pkt ac' front'),
      .resume (.refused ac')], ?_⟩
    rw [called, refused, List.foldl_cons, List.foldl_cons, List.foldl_cons, List.foldl_nil, begun,
      step_resume_begin, resume_enqueue_refused refused, step_resume_begin, resume]

/-! ## What the limits admit -/

/-- What `mtlk_sq_enqueue_pkt` compares with the limit of the category when a packet that is alone
on the way comes to it: the packet itself is counted, and what the other calls hold. -/
def counted (s : Queue σ ν) (ac : Ac) : Nat := (s.occupied ac + s.reserved ac + 1) % 2 ^ 32

/-- The peer's list is full, or what is counted beside the queued packets does not take the
category to its limit. -/
def Spare (s : Queue σ ν) (p : Ctx σ ν) (ac : Ac) : Prop :=
  s.peerQueueLimit ac ≤ (s.buflist p ac).length ∨
    if s.occupied ac < s.globalQueueLimit ac then s.counted ac < s.globalQueueLimit ac
    else s.globalQueueLimit ac ≤ s.counted ac

theorem enqueuePkt_ok_iff (s : Queue σ ν) (p : Ctx σ ν) (pkt : Pkt σ ν) (ac : Ac) :
    (s.enqueuePkt p pkt ac false).2 = .ok ↔
      asUint32 (s.size ac) < s.globalQueueLimit ac ∧
      (s.buflist p ac).length < s.peerQueueLimit ac := by
  rw [enqueuePkt]
  split
  case isTrue full =>
    simp only [Bool.not_false, Bool.true_and, Bool.or_eq_true, decide_eq_true_eq] at full
    simp only [reduceCtorEq, false_iff]
    omega
  case isFalse free =>
    simp only [Bool.not_false, Bool.true_and, Bool.or_eq_true, decide_eq_true_eq] at free
    simp only [true_iff]
    omega

/-- A packet that is not for the front is admitted by the counter, which counts it already. -/
theorem Steady.sqEnqueue_ok_iff (h : s.Steady 0) (nic : ν) (dstSta : Option σ) (vap : ν)
    (ac : Ac) : (s.sqEnqueue nic dstSta vap false ac false).2 = .ok ↔
      s.counted ac < s.globalQueueLimit ac ∧
      (s.buflist (peerCtx nic (⟨s.pkts, dstSta, vap, false, none⟩ : Pkt σ ν)) ac).length <
        s.peerQueueLimit ac := by
  generalize new : (⟨s.pkts, dstSta, vap, false, none⟩ : Pkt σ ν) = pkt
  have plain : switchIfUrgent pkt ac false = (ac, false) := by
    rw [← new]
    rfl
  have size : asUint32 ((s.allocPkt.sizeInc ac).size ac) = s.counted ac := by
    have here : (s.allocPkt.sizeInc ac).size ac = s.size ac + 1 := Function.update_self ..
    rw [here, h.size_eq, asUint32, counted]
    omega
  have result : (s.sqEnqueue nic dstSta vap false ac false).2 =
      ((s.allocPkt.sizeInc ac).enqueuePkt (peerCtx nic pkt) pkt ac false).2 := by
    simp only [sqEnqueue, new, plain]
    split
    case h_1 eq => rw [eq]
    case h_2 eq => rw [eq]
  rw [result, enqueuePkt_ok_iff, size]
  rfl

/-- Whatever happened since the packet was counted, it meets its own place at the lock. -/
theorem lock_admits_iff (globalQueueLimit peerQueueLimit : Ac → Nat) (events : List (Event σ ν))
    {nic : ν} {pkt : Pkt σ ν} {ac : Ac}
    (called : .enqueue nic pkt ac false ∈
      (events.foldl step (init globalQueueLimit peerQueueLimit)).calls) :
    let s := events.foldl step (init globalQueueLimit peerQueueLimit)
    1 ≤ s.reserved ac ∧
    (((s.finish (.enqueue nic pkt ac false)).enqueuePkt (peerCtx nic pkt) pkt ac false).2 = .ok ↔
      (s.occupied ac + s.reserved ac) % 2 ^ 32 < s.globalQueueLimit ac ∧
      (s.buflist (peerCtx nic pkt) ac).length < s.peerQueueLimit ac) := by
  intro s
  have steady : s.Steady 0 := run_steady globalQueueLimit peerQueueLimit events
  constructor
  · have own : 1 ≤ s.underway ac := by
      apply Multiset.single_le_sum (fun _ _ => Nat.zero_le _)
      rw [Multiset.mem_map]
      exact ⟨_, called, if_pos rfl⟩
    exact own.trans (Nat.le_add_right ..)
  · have size : asUint32 (s.size ac) = (s.occupied ac + s.reserved ac) % 2 ^ 32 := by
      rw [steady.size_eq, asUint32]
      omega
    rw [enqueuePkt_ok_iff, ← size]
    rfl

/-- The packet is admitted by the packets that are queued before the call just when the places
that are counted beside them do not matter. -/
theorem enqueue_admits_iff (globalQueueLimit peerQueueLimit : Ac → Nat)
    (events : List (Event σ ν)) (nic : ν) (dstSta : Option σ) (vap : ν) (ac : Ac) :
    let s := events.foldl step (init globalQueueLimit peerQueueLimit)
    let p := peerCtx nic (⟨s.pkts, dstSta, vap, false, none⟩ : Pkt σ ν)
    ((s.sqEnqueue nic dstSta vap false ac false).2 = .ok ↔
      s.occupied ac < s.globalQueueLimit ac ∧
      (s.buflist p ac).length < s.peerQueueLimit ac) ↔ s.Spare p ac := by
  intro s p
  have steady : s.Steady 0 := run_steady globalQueueLimit peerQueueLimit events
  have ok : (s.sqEnqueue nic dstSta vap false ac false).2 = .ok ↔
      s.counted ac < s.globalQueueLimit ac ∧ (s.buflist p ac).length < s.peerQueueLimit ac :=
    steady.sqEnqueue_ok_iff nic dstSta vap ac
  rw [ok, Spare]
  split
  · omega
  · omega

/-- A category with a limit of one packet, and a station that may have as many. -/
def roomForOne : Queue Unit Unit :=
  [Event.peerInit (.sta ()) 64].foldl step (init (fun _ => 1) fun _ => 1)

/-- Nothing is queued, the limits are for one packet, and the packet is refused. -/
theorem enqueue_refused_when_empty :
    ¬((roomForOne.sqEnqueue () (some ()) () false .be false).2 = .ok ↔
      roomForOne.occupied .be < roomForOne.globalQueueLimit .be ∧
      (roomForOne.buflist (.sta ()) .be).length < roomForOne.peerQueueLimit .be) := by
  decide

end Wave300.Sq.Queue
