import Wave300.Lib.Trace
import Wave300.Sq.Queue

/-!
# What a peer has in flight

`process_packets_by_ac` hands a packet to the hardware and counts it afterwards. The confirmation
of the packet runs on another CPU as soon as the hardware has it, so here the steps of the
hand-over and of `mtlk_sq_on_tx_cfm` are steps of their own.
-/

namespace Wave300.Sq

open Wave300.Lib

/-- A packet in flight, as `mtlk_sq_on_tx_cfm` sees it. -/
structure Sent (π : Type) where
  peer : π
  ac : Ac
  deriving DecidableEq, Repr

/-- What the hand-over of a packet does next. -/
inductive Stage where
  | release
  | incUsed
  | incUsedPerAc
  deriving DecidableEq, Repr

/-- `queue_lock` is held while a packet is handed over, so there is one hand-over at a time.
`sent` are the packets whose confirmation has not begun, and `confirming` those for which only
`used` is counted down. -/
structure InFlight (π : Type) where
  tx : π → PeerTx
  handing : Option (Stage × Sent π)
  sent : Multiset (Sent π)
  confirming : Multiset (Sent π)

namespace InFlight

variable {π : Type}

def init (limit : π → UInt32) : InFlight π where
  tx := fun p => .init (limit p)
  handing := none
  sent := 0
  confirming := 0

inductive Event (π : Type) where
  | handOver (p : π) (ac : Ac)
  | run
  | cfm (x : Sent π)
  | cfmPerAc (x : Sent π)
  | setTx (p : π) (limit : UInt32) (psModeEnabled : Bool) (limitPerAc : Ac → UInt32)

theorem sent_eq_iff (x : Sent π) (p : π) (ac : Ac) : x = ⟨p, ac⟩ ↔ x.peer = p ∧ x.ac = ac := by
  cases x
  simp

variable [DecidableEq π]

def setTx (s : InFlight π) (p : π) (x : PeerTx) : InFlight π :=
  { s with tx := Function.update s.tx p x }

@[simp] theorem setTx_sent (s : InFlight π) (p : π) (x : PeerTx) :
    (s.setTx p x).sent = s.sent := rfl

@[simp] theorem setTx_confirming (s : InFlight π) (p : π) (x : PeerTx) :
    (s.setTx p x).confirming = s.confirming := rfl

def step (s : InFlight π) : Event π → InFlight π
  | .handOver p ac =>
    if s.handing = none ∧ (s.tx p).overLimit ac = false then
      { s with handing := some (.release, ⟨p, ac⟩), sent := ⟨p, ac⟩ ::ₘ s.sent }
    else s
  | .run =>
    match s.handing with
    | none => s
    | some (.release, x) => { s with handing := some (.incUsed, x) }
    | some (.incUsed, x) =>
      { s.setTx x.peer (s.tx x.peer).incUsed with handing := some (.incUsedPerAc, x) }
    | some (.incUsedPerAc, x) =>
      { s.setTx x.peer ((s.tx x.peer).incUsedPerAc x.ac) with handing := none }
  | .cfm x =>
    if x ∈ s.sent then
      { s.setTx x.peer (s.tx x.peer).decUsed with
        sent := s.sent.erase x
        confirming := x ::ₘ s.confirming }
    else s
  | .cfmPerAc x =>
    if x ∈ s.confirming then
      { s.setTx x.peer ((s.tx x.peer).decUsedPerAc x.ac) with
        confirming := s.confirming.erase x }
    else s
  | .setTx p limit psModeEnabled limitPerAc =>
    s.setTx p { s.tx p with
      limit := limit, psModeEnabled := psModeEnabled, limitPerAc := limitPerAc }

/-- The packets of a peer in flight. -/
def ofPeer (l : Multiset (Sent π)) (p : π) : Nat := l.countP (·.peer = p)

/-- The packets of a peer in flight, of one category. -/
def ofAc (l : Multiset (Sent π)) (p : π) (ac : Ac) : Nat := l.count ⟨p, ac⟩

/-- The hand-over of a packet to `p` that `used` does not count yet. -/
def uncounted (s : InFlight π) (p : π) : Nat :=
  match s.handing with
  | some (.release, x) | some (.incUsed, x) => if x.peer = p then 1 else 0
  | _ => 0

/-- The hand-over of a packet that `used_per_ac` does not count yet. -/
def uncountedPerAc (s : InFlight π) (p : π) (ac : Ac) : Nat :=
  match s.handing with
  | some (_, x) => if x = ⟨p, ac⟩ then 1 else 0
  | none => 0

/-- The counters, with the packet that is handed over, count what is in flight. -/
structure Counted (s : InFlight π) : Prop where
  used : ∀ p, (s.tx p).used + s.uncounted p = ofPeer s.sent p
  usedPerAc : ∀ p ac,
    (s.tx p).usedPerAc ac + s.uncountedPerAc p ac = ofAc (s.sent + s.confirming) p ac

variable {s : InFlight π}

theorem used_setTx {p : π} {x : PeerTx} {n : Int} (change : x.used = (s.tx p).used + n) (q : π) :
    ((s.setTx p x).tx q).used = (s.tx q).used + if p = q then n else 0 := by
  by_cases same : p = q
  · subst same
    simp [setTx, change]
  · simp [setTx, same, Ne.symm same]

theorem usedPerAc_setTx {p : π} {x : PeerTx} {ac : Ac} {n : Int}
    (change : ∀ ac', x.usedPerAc ac' = (s.tx p).usedPerAc ac' + if ac = ac' then n else 0) (q : π)
    (ac' : Ac) :
    ((s.setTx p x).tx q).usedPerAc ac' =
      (s.tx q).usedPerAc ac' + if p = q ∧ ac = ac' then n else 0 := by
  by_cases same : p = q
  · subst same
    simp [setTx, change]
  · simp [setTx, same, Ne.symm same]

theorem incUsedPerAc_apply (x : PeerTx) (ac ac' : Ac) :
    (x.incUsedPerAc ac).usedPerAc ac' = x.usedPerAc ac' + if ac = ac' then 1 else 0 := by
  by_cases same : ac = ac'
  · subst same
    simp [PeerTx.incUsedPerAc]
  · simp [PeerTx.incUsedPerAc, same, Ne.symm same]

theorem decUsedPerAc_apply (x : PeerTx) (ac ac' : Ac) :
    (x.decUsedPerAc ac).usedPerAc ac' = x.usedPerAc ac' + if ac = ac' then -1 else 0 := by
  by_cases same : ac = ac'
  · subst same
    simp [PeerTx.decUsedPerAc, Int.sub_eq_add_neg]
  · simp [PeerTx.decUsedPerAc, same, Ne.symm same]

theorem ofPeer_erase {l : Multiset (Sent π)} {x : Sent π} (mem : x ∈ l) (p : π) :
    ofPeer l p = ofPeer (l.erase x) p + if x.peer = p then 1 else 0 := by
  have back := congrArg (ofPeer · p) (Multiset.cons_erase mem)
  simp only [ofPeer, Multiset.countP_cons] at back ⊢
  exact back.symm

theorem ofAc_erase {l : Multiset (Sent π)} {x : Sent π} (mem : x ∈ l) (p : π) (ac : Ac) :
    ofAc l p ac = ofAc (l.erase x) p ac + if x.peer = p ∧ x.ac = ac then 1 else 0 := by
  have back := congrArg (ofAc · p ac) (Multiset.cons_erase mem)
  simp only [ofAc, Multiset.count_cons, eq_comm (b := x), sent_eq_iff] at back ⊢
  exact back.symm

theorem Counted.run (h : s.Counted) : (s.step .run).Counted := by
  rw [step.eq_def]
  rcases handing : s.handing with _ | ⟨_ | _ | _, x⟩
  case none => exact h
  case some.release =>
    constructor
    · intro p
      have used := h.used p
      simp only [uncounted, handing] at used ⊢
      exact used
    · intro p ac
      have used := h.usedPerAc p ac
      simp only [uncountedPerAc, handing] at used ⊢
      exact used
  case some.incUsed =>
    have one : (s.tx x.peer).incUsed.used = (s.tx x.peer).used + 1 := rfl
    constructor
    · intro p
      have used := h.used p
      have inc := used_setTx one p
      simp only [uncounted, handing, setTx_sent] at used ⊢
      rw [inc]
      push_cast at used ⊢
      omega
    · intro p ac
      have used := h.usedPerAc p ac
      have same : ∀ ac', (s.tx x.peer).incUsed.usedPerAc ac' =
          (s.tx x.peer).usedPerAc ac' + if ac = ac' then 0 else 0 := by simp [PeerTx.incUsed]
      have inc := usedPerAc_setTx same p ac
      simp only [uncountedPerAc, handing] at used ⊢
      rw [inc, ite_self, add_zero]
      exact used
  case some.incUsedPerAc =>
    constructor
    · intro p
      have used := h.used p
      have same : ((s.tx x.peer).incUsedPerAc x.ac).used = (s.tx x.peer).used + 0 :=
        (add_zero _).symm
      have inc := used_setTx same p
      simp only [uncounted, handing] at used ⊢
      rw [inc, ite_self, add_zero]
      exact used
    · intro p ac
      have used := h.usedPerAc p ac
      have inc := usedPerAc_setTx (incUsedPerAc_apply (s.tx x.peer) x.ac) p ac
      simp only [uncountedPerAc, handing, sent_eq_iff, setTx_sent, setTx_confirming] at used ⊢
      rw [inc]
      push_cast at used ⊢
      omega

theorem Counted.handOver (h : s.Counted) (p : π) (ac : Ac) :
    (s.step (.handOver p ac)).Counted := by
  rw [step]
  split
  case isTrue free =>
    have idle := free.1
    constructor
    · intro q
      have used := h.used q
      simp only [uncounted, idle] at used
      simp only [uncounted, ofPeer, Multiset.countP_cons] at used ⊢
      push_cast
      omega
    · intro q ac'
      have used := h.usedPerAc q ac'
      simp only [uncountedPerAc, idle] at used
      simp only [uncountedPerAc, ofAc, Multiset.cons_add, Multiset.count_cons,
        eq_comm (a := Sent.mk p ac)] at used ⊢
      push_cast
      omega
  case isFalse => exact h

theorem Counted.cfm (h : s.Counted) (x : Sent π) : (s.step (.cfm x)).Counted := by
  rw [step]
  split
  case isTrue mem =>
    constructor
    · intro p
      have used := h.used p
      have one : (s.tx x.peer).decUsed.used = (s.tx x.peer).used + -1 := Int.sub_eq_add_neg
      have dec := used_setTx one p
      have rest := ofPeer_erase mem p
      change _ + (s.uncounted p : Int) = ofPeer (s.sent.erase x) p
      rw [dec]
      by_cases same : x.peer = p
      · rw [if_pos same] at rest ⊢
        omega
      · rw [if_neg same] at rest ⊢
        omega
    · intro p ac
      have used := h.usedPerAc p ac
      have same : ∀ ac', (s.tx x.peer).decUsed.usedPerAc ac' =
          (s.tx x.peer).usedPerAc ac' + if ac = ac' then 0 else 0 := by simp [PeerTx.decUsed]
      have dec := usedPerAc_setTx same p ac
      have moved : s.sent.erase x + x ::ₘ s.confirming = s.sent + s.confirming := by
        rw [Multiset.add_cons, ← Multiset.cons_add, Multiset.cons_erase mem]
      change _ + (s.uncountedPerAc p ac : Int) = ofAc (s.sent.erase x + x ::ₘ s.confirming) p ac
      rw [dec, moved, ite_self, add_zero]
      exact used
  case isFalse => exact h

theorem Counted.cfmPerAc (h : s.Counted) (x : Sent π) : (s.step (.cfmPerAc x)).Counted := by
  rw [step]
  split
  case isTrue mem =>
    constructor
    · intro p
      have used := h.used p
      have same : ((s.tx x.peer).decUsedPerAc x.ac).used = (s.tx x.peer).used + 0 :=
        (add_zero _).symm
      have dec := used_setTx same p
      change _ + (s.uncounted p : Int) = ofPeer s.sent p
      rw [dec, ite_self, add_zero]
      exact used
    · intro p ac
      have used := h.usedPerAc p ac
      have dec := usedPerAc_setTx (decUsedPerAc_apply (s.tx x.peer) x.ac) p ac
      have rest := ofAc_erase mem p ac
      change _ + (s.uncountedPerAc p ac : Int) = ofAc (s.sent + s.confirming.erase x) p ac
      rw [dec]
      simp only [ofAc, Multiset.count_add] at used rest ⊢
      by_cases same : x.peer = p ∧ x.ac = ac
      · rw [if_pos same] at rest ⊢
        omega
      · rw [if_neg same] at rest ⊢
        omega
  case isFalse => exact h

theorem Counted.setTx (h : s.Counted) (p : π) {x : PeerTx} (used : x.used = (s.tx p).used)
    (usedPerAc : x.usedPerAc = (s.tx p).usedPerAc) : (s.setTx p x).Counted := by
  constructor
  · intro q
    have same := used_setTx (used.trans (add_zero _).symm) q
    change _ + (s.uncounted q : Int) = ofPeer s.sent q
    rw [same, ite_self, add_zero]
    exact h.used q
  · intro q ac
    have same : ∀ ac', x.usedPerAc ac' =
        (s.tx p).usedPerAc ac' + if ac = ac' then 0 else 0 := by simp [usedPerAc]
    have same := usedPerAc_setTx same q ac
    change _ + (s.uncountedPerAc q ac : Int) = ofAc (s.sent + s.confirming) q ac
    rw [same, ite_self, add_zero]
    exact h.usedPerAc q ac

/-- The counters agree with what is in flight, whatever the interleaving. -/
theorem Counted.step (h : s.Counted) (e : Event π) : (s.step e).Counted := by
  cases e with
  | handOver p ac => exact h.handOver p ac
  | run => exact h.run
  | cfm x => exact h.cfm x
  | cfmPerAc x => exact h.cfmPerAc x
  | setTx p limit psModeEnabled limitPerAc => exact h.setTx p rfl rfl

theorem init_counted (limit : π → UInt32) : (init limit).Counted := by
  constructor
  · intro p
    simp [init, PeerTx.init, uncounted, ofPeer]
  · intro p ac
    simp [init, PeerTx.init, uncountedPerAc, ofAc]

theorem run_counted {ok : InFlight π → Event π → Prop} {limit : π → UInt32}
    (run : Runs step ok (init limit) s) : s.Counted := by
  apply run.invariant (init_counted limit)
  intro s e counted _
  exact counted.step e

/-! ## Passing a peer by -/

theorem asUint32_le {n : Int} (nonneg : 0 ≤ n) : (asUint32 n : Int) ≤ n := by
  rw [asUint32]
  omega

/-- How many packets count against the limit that is in force for the category. -/
def inFlight (s : InFlight π) (p : π) (ac : Ac) : Nat :=
  if (s.tx p).limitsAc ac then ofAc (s.sent + s.confirming) p ac
  else ofPeer (s.sent + s.confirming) p

/-- The limit that is in force for the category. -/
def limitInForce (s : InFlight π) (p : π) (ac : Ac) : Nat :=
  if (s.tx p).limitsAc ac then ((s.tx p).limitPerAc ac).toNat else (s.tx p).limit.toNat

/-- Between hand-overs the counters are what is in flight. -/
theorem Counted.exact (h : s.Counted) (idle : s.handing = none) (p : π) (ac : Ac) :
    (s.tx p).used = ofPeer s.sent p ∧
      (s.tx p).usedPerAc ac = ofAc (s.sent + s.confirming) p ac := by
  have used := h.used p
  have usedPerAc := h.usedPerAc p ac
  simp only [uncounted, uncountedPerAc, idle, Nat.cast_zero, add_zero] at used usedPerAc
  exact ⟨used, usedPerAc⟩

theorem Counted.overLimit (h : s.Counted) (idle : s.handing = none) {p : π} {ac : Ac}
    (full : (s.tx p).overLimit ac) : s.limitInForce p ac ≤ s.inFlight p ac := by
  obtain ⟨used, usedPerAc⟩ := h.exact idle p ac
  rw [PeerTx.overLimit] at full
  rw [limitInForce, inFlight]
  split at full
  case isTrue limits =>
    have le := asUint32_le (n := (s.tx p).usedPerAc ac) (by omega)
    have limit := of_decide_eq_true full
    rw [if_pos limits, if_pos limits]
    omega
  case isFalse limits =>
    have le := asUint32_le (n := (s.tx p).used) (by omega)
    have limit := of_decide_eq_true full
    have more : ofPeer s.sent p ≤ ofPeer (s.sent + s.confirming) p := by
      rw [ofPeer, ofPeer, Multiset.countP_add]
      exact Nat.le_add_right ..
    rw [if_neg limits, if_neg limits]
    omega

/-! ## Confirmations that do not overtake the count -/

/-- While a packet to a peer is handed over and not counted, a confirmation leaves another packet
of that peer, and of that category, in flight. -/
def Backed (s : InFlight π) : Event π → Prop
  | .cfm x => 0 < s.uncounted x.peer → 0 < ofPeer (s.sent.erase x) x.peer
  | .cfmPerAc x => 0 < s.uncountedPerAc x.peer x.ac →
      0 < ofAc (s.sent + s.confirming.erase x) x.peer x.ac
  | _ => True

instance (s : InFlight π) : ∀ e, Decidable (s.Backed e)
  | .cfm _ | .cfmPerAc _ => inferInstanceAs (Decidable (_ → _))
  | .handOver .. | .run | .setTx .. => .isTrue trivial

/-- A packet that is not counted is not the only one in flight that could be confirmed. -/
structure Covered (s : InFlight π) : Prop where
  peer : ∀ p, 0 < s.uncounted p → 0 < ofPeer s.sent p
  perAc : ∀ p ac, 0 < s.uncountedPerAc p ac → 0 < ofAc (s.sent + s.confirming) p ac

theorem uncounted_le (s : InFlight π) (p : π) : s.uncounted p ≤ 1 := by
  rw [uncounted]
  split
  · split <;> omega
  · split <;> omega
  · omega

theorem uncountedPerAc_le (s : InFlight π) (p : π) (ac : Ac) : s.uncountedPerAc p ac ≤ 1 := by
  rw [uncountedPerAc]
  split
  · split <;> omega
  · omega

theorem Covered.nonneg (h : s.Covered) (counted : s.Counted) (p : π) (ac : Ac) :
    0 ≤ (s.tx p).used ∧ 0 ≤ (s.tx p).usedPerAc ac := by
  have used := counted.used p
  have usedPerAc := counted.usedPerAc p ac
  have peer := h.peer p
  have perAc := h.perAc p ac
  have le := s.uncounted_le p
  have lePerAc := s.uncountedPerAc_le p ac
  omega

theorem Covered.handOver (h : s.Covered) (p : π) (ac : Ac) :
    (s.step (.handOver p ac)).Covered := by
  rw [step]
  split
  case isTrue =>
    constructor
    · intro q pos
      simp only [uncounted, ofPeer, Multiset.countP_cons] at pos ⊢
      omega
    · intro q ac' pos
      simp only [uncountedPerAc, ofAc, Multiset.cons_add, Multiset.count_cons,
        eq_comm (a := Sent.mk p ac)] at pos ⊢
      omega
  case isFalse => exact h

theorem Covered.run (h : s.Covered) : (s.step .run).Covered := by
  rw [step.eq_def]
  rcases handing : s.handing with _ | ⟨_ | _ | _, x⟩
  case none => exact h
  case some.release =>
    constructor
    · intro p
      have peer := h.peer p
      simp only [uncounted, handing] at peer ⊢
      exact peer
    · intro p ac
      have perAc := h.perAc p ac
      simp only [uncountedPerAc, handing] at perAc ⊢
      exact perAc
  case some.incUsed =>
    constructor
    · intro p pos
      simp only [uncounted, Nat.lt_irrefl] at pos
    · intro p ac
      have perAc := h.perAc p ac
      simp only [uncountedPerAc, handing] at perAc ⊢
      exact perAc
  case some.incUsedPerAc =>
    constructor
    · intro p pos
      simp only [uncounted, Nat.lt_irrefl] at pos
    · intro p ac pos
      simp only [uncountedPerAc, Nat.lt_irrefl] at pos

theorem Covered.cfm (h : s.Covered) {x : Sent π} (backed : s.Backed (.cfm x)) :
    (s.step (.cfm x)).Covered := by
  rw [step]
  split
  case isTrue mem =>
    constructor
    · intro p pos
      change 0 < ofPeer (s.sent.erase x) p
      by_cases same : x.peer = p
      · subst same
        exact backed pos
      · have rest := ofPeer_erase mem p
        rw [if_neg same] at rest
        have old := h.peer p pos
        omega
    · intro p ac pos
      have moved : s.sent.erase x + x ::ₘ s.confirming = s.sent + s.confirming := by
        rw [Multiset.add_cons, ← Multiset.cons_add, Multiset.cons_erase mem]
      change 0 < ofAc (s.sent.erase x + x ::ₘ s.confirming) p ac
      rw [moved]
      exact h.perAc p ac pos
  case isFalse => exact h

theorem Covered.cfmPerAc (h : s.Covered) {x : Sent π} (backed : s.Backed (.cfmPerAc x)) :
    (s.step (.cfmPerAc x)).Covered := by
  rw [step]
  split
  case isTrue mem =>
    constructor
    · exact h.peer
    · intro p ac pos
      change 0 < ofAc (s.sent + s.confirming.erase x) p ac
      by_cases same : x.peer = p ∧ x.ac = ac
      · obtain ⟨rfl, rfl⟩ := same
        exact backed pos
      · have rest := ofAc_erase mem p ac
        rw [if_neg same] at rest
        have old := h.perAc p ac pos
        simp only [ofAc, Multiset.count_add] at old rest ⊢
        omega
  case isFalse => exact h

theorem Covered.step (h : s.Covered) {e : Event π} (backed : s.Backed e) : (s.step e).Covered := by
  cases e with
  | handOver p ac => exact h.handOver p ac
  | run => exact h.run
  | cfm x => exact h.cfm backed
  | cfmPerAc x => exact h.cfmPerAc backed
  | setTx => exact ⟨h.peer, h.perAc⟩

end InFlight

open InFlight

variable {π : Type} [DecidableEq π]

/-- The counters of a peer do not go below zero, they are what is in flight between hand-overs,
and a peer is passed by only when its limit is in flight. -/
theorem in_flight_accounted {limit : π → UInt32} {s : InFlight π}
    (run : Runs step Backed (init limit) s) :
    (∀ p ac, 0 ≤ (s.tx p).used ∧ 0 ≤ (s.tx p).usedPerAc ac) ∧
    (s.handing = none → ∀ p ac, (s.tx p).used = ofPeer s.sent p ∧
      (s.tx p).usedPerAc ac = ofAc (s.sent + s.confirming) p ac) ∧
    (s.handing = none → ∀ p ac, (s.tx p).overLimit ac → s.limitInForce p ac ≤ s.inFlight p ac) := by
  have counted := run_counted run
  have covered : s.Covered := by
    apply run.invariant
    · constructor
      · intro p pos
        cases pos
      · intro p ac pos
        cases pos
    · intro s e before backed
      exact before.step backed
  refine ⟨covered.nonneg counted, counted.exact, ?_⟩
  intro idle p ac full
  exact counted.overLimit idle full

/-- Two packets to one peer. The first is confirmed while the second is handed over, and the second
when it is counted. -/
def twoPackets : List (InFlight.Event Unit) :=
  [.handOver () .be, .run, .run, .run, .handOver () .be, .cfm ⟨(), .be⟩, .cfmPerAc ⟨(), .be⟩, .run,
    .run, .run]

theorem in_flight_accounted_twice :
    let s := twoPackets.foldl step (init fun _ => 64)
    s.handing = none ∧ (s.tx ()).used = 1 := by
  intro s
  have run : Runs step Backed (init fun _ => 64) s := by
    apply Runs.of_allowed
    decide
  have idle : s.handing = none := by decide
  have one : ofPeer s.sent () = 1 := by decide
  refine ⟨idle, ?_⟩
  rw [((in_flight_accounted run).2.1 idle () .be).1, one]
  rfl

/-- One packet, confirmed before it is counted: `used` wraps. -/
theorem confirmed_before_counted :
    let s := [.handOver () .be, .cfm ⟨(), .be⟩].foldl step (init fun _ : Unit => 64)
    (s.tx ()).used = -1 ∧ asUint32 (s.tx ()).used = 0xFFFFFFFF := by
  decide

end Wave300.Sq
