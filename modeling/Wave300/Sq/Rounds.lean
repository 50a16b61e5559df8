import Wave300.Lib.Trace
import Wave300.Sq.Sound

/-!
# The rounds of the send queue

`process_packets_by_ac` goes round the peers of a category until a round sends nothing. A log of
the packets that it tries to send tells what became of each.
-/

namespace Wave300.Sq

open Wave300.Lib

variable {σ ν : Type}

/-- A packet that was taken out of its list to be sent, and the answer. -/
structure Handled (σ ν : Type) where
  ctx : Ctx σ ν
  pkt : Pkt σ ν
  res : Err
  deriving DecidableEq, Repr

/-- The packet did not go back to its list. -/
def Handled.left (x : Handled σ ν) : Bool := x.res ≠ .prohib && x.res ≠ .noResources

section
variable [DecidableEq σ] [DecidableEq ν]

/-- The packets of a peer that left its list, in the order in which they did. -/
def leftOf (p : Ctx σ ν) (log : List (Handled σ ν)) : List (Pkt σ ν) :=
  (log.filter fun x => x.ctx = p && x.left).map (·.pkt)

/-- The packets of a peer that the hardware took. -/
def handedOf (p : Ctx σ ν) (log : List (Handled σ ν)) : List (Pkt σ ν) :=
  (log.filter fun x => x.ctx = p && x.res = .ok).map (·.pkt)

theorem leftOf_append (p : Ctx σ ν) (log log' : List (Handled σ ν)) :
    leftOf p (log ++ log') = leftOf p log ++ leftOf p log' := by
  simp [leftOf]

theorem handedOf_append (p : Ctx σ ν) (log log' : List (Handled σ ν)) :
    handedOf p (log ++ log') = handedOf p log ++ handedOf p log' := by
  simp [handedOf]

theorem handedOf_sublist (p : Ctx σ ν) (log : List (Handled σ ν)) :
    (handedOf p log).Sublist (leftOf p log) := by
  apply List.Sublist.map
  apply List.monotone_filter_right
  intro x
  simp only [Bool.and_eq_true, decide_eq_true_eq, Handled.left]
  rintro ⟨own, ok⟩
  simp [own, ok]

end

/-- Everything that the hardware took. -/
def handedAll (ac : Ac) (log : List (Handled σ ν)) : List (Handed σ ν) :=
  (log.filter (·.res = .ok)).map fun x => ⟨x.ctx, ac, x.pkt⟩

/-- The counters of a peer of which the hardware has taken `n` more packets. -/
def PeerTx.handedOver (x : PeerTx) (ac : Ac) (n : Nat) : PeerTx :=
  { x with
    used := x.used + n
    usedPerAc := Function.update x.usedPerAc ac (x.usedPerAc ac + n) }

theorem PeerTx.handedOver_zero (x : PeerTx) (ac : Ac) : x.handedOver ac 0 = x := by
  simp [handedOver]

theorem PeerTx.handedOver_add (x : PeerTx) (ac : Ac) (m n : Nat) :
    (x.handedOver ac m).handedOver ac n = x.handedOver ac (m + n) := by
  simp [handedOver, Int.add_assoc]

namespace Queue

/-- What becomes of a peer's first packet in its turn. -/
def attempt (s : Queue σ ν) (hw : Nat → Err) (ac : Ac) (p : Ctx σ ν) : List (Handled σ ν) :=
  match s.buflist p ac with
  | [] => []
  | pkt :: _ => if (s.tx p).overLimit ac then [] else [⟨p, pkt, s.answer hw pkt⟩]

theorem attempt_of_first {s : Queue σ ν} {ac : Ac} {p : Ctx σ ν} {pkt : Pkt σ ν}
    {rest : List (Pkt σ ν)} (list : s.buflist p ac = pkt :: rest)
    (free : (s.tx p).overLimit ac = false) (hw : Nat → Err) :
    s.attempt hw ac p = [⟨p, pkt, s.answer hw pkt⟩] := by
  simp [attempt, list, free]

theorem attempt_ctx (s : Queue σ ν) (hw : Nat → Err) (ac : Ac) (p : Ctx σ ν) :
    ((s.attempt hw ac p).map (·.ctx)).Sublist [p] := by
  rw [attempt]
  split
  · exact List.nil_sublist _
  · split
    · exact List.nil_sublist _
    · exact List.Sublist.refl _

theorem extraDetach_tx (s : Queue σ ν) (g : Nat) :
    (s.extraDetach g).1.tx = s.tx ∧ (s.extraDetach g).1.inHw = s.inHw := by
  rw [extraDetach]
  cases s.extra g with
  | none => exact ⟨rfl, rfl⟩
  | some e =>
    simp only
    split <;> exact ⟨rfl, rfl⟩

/-- Giving a packet's place back touches neither the counters of the peers nor the hardware. -/
theorem releasePacket_tx (s : Queue σ ν) (ac : Ac) (pkt : Pkt σ ν) :
    (s.releasePacket ac pkt).tx = s.tx ∧ (s.releasePacket ac pkt).inHw = s.inHw := by
  rw [releasePacket]
  cases pkt.rmcast with
  | none => exact ⟨rfl, rfl⟩
  | some g =>
    have detached := s.extraDetach_tx g
    simp only [enqueueCloneEnd]
    split
    · split
      · exact detached
      · exact detached
    · exact ⟨rfl, rfl⟩

variable [DecidableEq σ] [DecidableEq ν]

/-- What one round tries to send. -/
def roundLog (hw : Nat → Err) (ac : Ac) : Queue σ ν → List (Ctx σ ν) → List (Handled σ ν)
  | _, [] => []
  | s, p :: ps =>
    match s.visit hw ac p with
    | (_, .stop _) => s.attempt hw ac p
    | (s', _) => s.attempt hw ac p ++ roundLog hw ac s' ps

/-- `process_packets_by_ac` as the loop that it is: with these rounds it ends in `s'` and returns
`res`. -/
inductive Rounds (hw : Nat → Err) (ac : Ac) :
    Queue σ ν → List (List (Handled σ ν)) → Queue σ ν → Err → Prop where
  | last {s s' : Queue σ ν} : s.round hw ac (s.peers ac) 0 = (s', 0, .ok) →
      Rounds hw ac s [s.roundLog hw ac (s.peers ac)] (s'.shift ac) .ok
  | again {s s' s'' : Queue σ ν} {n : Nat} {logs : List (List (Handled σ ν))} {res : Err} :
      s.round hw ac (s.peers ac) 0 = (s', n + 1, .ok) → Rounds hw ac s' logs s'' res →
      Rounds hw ac s (s.roundLog hw ac (s.peers ac) :: logs) s'' res
  | stop {s s' : Queue σ ν} {n : Nat} {res : Err} :
      s.round hw ac (s.peers ac) 0 = (s', n, res) → res ≠ .ok →
      Rounds hw ac s [s.roundLog hw ac (s.peers ac)] s' res

/-- What was tried according to the log is all that happened to the category. -/
structure Serves (s : Queue σ ν) (ac : Ac) (log : List (Handled σ ν)) (s' : Queue σ ν) :
    Prop where
  lists : ∀ p, s.buflist p ac = leftOf p log ++ s'.buflist p ac
  others : ∀ p ac', ac' ≠ ac → s'.buflist p ac' = s.buflist p ac'
  inHw : s'.inHw = handedAll ac log + s.inHw
  tx : ∀ p, s'.tx p = (s.tx p).handedOver ac (handedOf p log).length
  within : Each (fun pre x =>
    ((s.tx x.ctx).handedOver ac (handedOf x.ctx pre).length).overLimit ac = false) log

variable {s s' s'' : Queue σ ν} {hw : Nat → Err} {ac : Ac} {p : Ctx σ ν}
  {log log' : List (Handled σ ν)}

theorem Serves.nil (s : Queue σ ν) (ac : Ac) : s.Serves ac [] s where
  lists := fun _ => rfl
  others := fun _ _ _ => rfl
  inHw := by simp [handedAll]
  tx := fun p => ((s.tx p).handedOver_zero ac).symm
  within := .nil

theorem Serves.trans (h : s.Serves ac log s') (h' : s'.Serves ac log' s'') :
    s.Serves ac (log ++ log') s'' where
  lists := by
    intro p
    rw [h.lists, h'.lists, leftOf_append, List.append_assoc]
  others := by
    intro p ac' ne
    rw [h'.others p ac' ne, h.others p ac' ne]
  inHw := by
    rw [h'.inHw, h.inHw, handedAll, handedAll, handedAll, List.filter_append, List.map_append,
      ← Multiset.coe_add, ← add_assoc, add_comm (Multiset.ofList _) (Multiset.ofList _)]
  tx := by
    intro p
    rw [h'.tx, h.tx, PeerTx.handedOver_add, handedOf_append, List.length_append]
  within := by
    apply h.within.append
    intro pre x post eq
    have here : ((s'.tx x.ctx).handedOver ac (handedOf x.ctx pre).length).overLimit ac = false :=
      h'.within pre x post eq
    rw [h.tx, PeerTx.handedOver_add] at here
    rwa [handedOf_append, List.length_append]

/-! ## One turn -/

/-- The peer's first packet does not leave its list. -/
theorem Serves.back {pkt : Pkt σ ν} {res : Err} (free : (s.tx p).overLimit ac = false)
    (back : res = .prohib ∨ res = .noResources) : s.Serves ac [⟨p, pkt, res⟩] s where
  lists := by
    intro q
    rcases back with rfl | rfl <;> simp [leftOf, Handled.left]
  others := fun _ _ _ => rfl
  inHw := by rcases back with rfl | rfl <;> simp [handedAll]
  tx := by
    intro q
    rcases back with rfl | rfl <;> simp [handedOf, PeerTx.handedOver_zero]
  within := by
    apply Each.singleton
    simpa [handedOf, PeerTx.handedOver_zero] using free

theorem buflist_takeFirst {pkt : Pkt σ ν} {rest : List (Pkt σ ν)}
    (list : s.buflist p ac = pkt :: rest) {res : Err} (left : (⟨p, pkt, res⟩ : Handled σ ν).left)
    (q : Ctx σ ν) : s.buflist q ac =
      leftOf q [⟨p, pkt, res⟩] ++ (s.takeFirst p ac pkt rest).buflist q ac := by
  rw [takeFirst_buflist]
  by_cases same : q = p
  · subst same
    simp [leftOf, left, list, setBuflist]
  · simp [leftOf, Ne.symm same, setBuflist, same]

theorem buflist_takeFirst_of_ne {pkt : Pkt σ ν} {rest : List (Pkt σ ν)} (q : Ctx σ ν) {ac' : Ac}
    (ne : ac' ≠ ac) : (s.takeFirst p ac pkt rest).buflist q ac' = s.buflist q ac' := by
  rw [takeFirst_buflist]
  by_cases same : q = p
  · subst same
    simp [setBuflist, ne]
  · simp [setBuflist, same]

theorem takeFirst_tx (s : Queue σ ν) (p : Ctx σ ν) (ac : Ac) (pkt : Pkt σ ν)
    (rest : List (Pkt σ ν)) : (s.takeFirst p ac pkt rest).tx = s.tx ∧
      (s.takeFirst p ac pkt rest).inHw = s.inHw :=
  releasePacket_tx (s.setBuflist p ac rest) ac pkt

theorem Serves.sent {pkt : Pkt σ ν} {rest : List (Pkt σ ν)} (list : s.buflist p ac = pkt :: rest)
    (free : (s.tx p).overLimit ac = false) :
    s.Serves ac [⟨p, pkt, .ok⟩] ((s.takeFirst p ac pkt rest).handOver p ac pkt) where
  lists := buflist_takeFirst list rfl
  others := fun q _ ne => buflist_takeFirst_of_ne q ne
  inHw := by
    have same := (s.takeFirst_tx p ac pkt rest).2
    simp [handOver, setTx, handedAll, same]
  tx := by
    intro q
    have same := (s.takeFirst_tx p ac pkt rest).1
    by_cases eq : q = p
    · subst eq
      simp [handOver, setTx, same, handedOf, PeerTx.handedOver, PeerTx.incUsed,
        PeerTx.incUsedPerAc]
    · simp [handOver, setTx, same, eq, Ne.symm eq, handedOf, PeerTx.handedOver_zero]
  within := by
    apply Each.singleton
    simpa [handedOf, PeerTx.handedOver_zero] using free

theorem Serves.freed {pkt : Pkt σ ν} {rest : List (Pkt σ ν)} {res : Err}
    (list : s.buflist p ac = pkt :: rest) (free : (s.tx p).overLimit ac = false)
    (left : (⟨p, pkt, res⟩ : Handled σ ν).left) (notOk : res ≠ .ok) :
    s.Serves ac [⟨p, pkt, res⟩] ((s.takeFirst p ac pkt rest).free pkt) where
  lists := buflist_takeFirst list left
  others := fun q _ ne => buflist_takeFirst_of_ne q ne
  inHw := by
    have same := (s.takeFirst_tx p ac pkt rest).2
    simp [Queue.free, handedAll, same, notOk]
  tx := by
    intro q
    have same := (s.takeFirst_tx p ac pkt rest).1
    simp [Queue.free, same, notOk, handedOf, PeerTx.handedOver_zero]
  within := by
    apply Each.singleton
    simpa [handedOf, PeerTx.handedOver_zero] using free

/-- One turn of a peer. -/
theorem visit_serves (s : Queue σ ν) (hw : Nat → Err) (ac : Ac) (p : Ctx σ ν) :
    s.Serves ac (s.attempt hw ac p) (s.visit hw ac p).1 := by
  rcases s.visit_cases hw ac p with ⟨skipped, why⟩ | ⟨pkt, rest, list, free, outcome⟩
  · have nothing : s.attempt hw ac p = [] := by
      rcases why with empty | full
      · simp [attempt, empty]
      · rw [attempt]
        split
        · rfl
        · exact if_pos full
    rw [nothing, skipped]
    exact .nil s ac
  · rw [attempt_of_first list free]
    rcases outcome with ⟨stopped, answer⟩ | ⟨sent, answer⟩ | ⟨dropped, answer⟩ | ⟨failed, answer⟩
    · rw [stopped]
      exact .back free answer
    · rw [sent, answer]
      exact .sent list free
    · rw [dropped, answer]
      exact .freed list free rfl nofun
    · rw [failed]
      rcases answer with answer | answer
      · rw [answer]
        exact .freed list free rfl nofun
      · rw [answer]
        exact .freed list free rfl nofun

/-! ## One round -/

variable (s hw ac p) in
/-- A turn that counts takes the first packet. -/
theorem leftOf_attempt (sent : (s.visit hw ac p).2 = .sent) :
    leftOf p (s.attempt hw ac p) ≠ [] := by
  rcases s.visit_cases hw ac p with ⟨skipped, -⟩ | ⟨pkt, rest, list, free, outcome⟩
  · rw [skipped] at sent
    cases sent
  · rw [attempt_of_first list free]
    rcases outcome with ⟨stopped, -⟩ | ⟨-, ok⟩ | ⟨-, dropped⟩ | ⟨failed, -⟩
    · rw [stopped] at sent
      cases sent
    · simp [leftOf, Handled.left, ok]
    · simp [leftOf, Handled.left, dropped]
    · rw [failed] at sent
      cases sent

variable (s hw ac p) in
/-- What leaves its list was sent or dropped, unless the turn failed. -/
theorem attempt_res (known : (s.visit hw ac p).2 ≠ .stop .unknown) :
    ∀ x ∈ s.attempt hw ac p, x.left → x.res = .ok ∨ x.res = .pktDropped := by
  intro x mem left
  rcases s.visit_cases hw ac p with ⟨-, why⟩ | ⟨pkt, rest, list, free, outcome⟩
  · rcases why with empty | full
    · simp [attempt, empty] at mem
    · rw [attempt] at mem
      split at mem
      · cases mem
      · rw [if_pos full] at mem
        cases mem
  · rw [attempt_of_first list free, List.mem_singleton] at mem
    subst mem
    rcases outcome with ⟨-, back | back⟩ | ⟨-, ok⟩ | ⟨-, dropped⟩ | ⟨failed, -⟩
    · simp [Handled.left, back] at left
    · simp [Handled.left, back] at left
    · exact .inl ok
    · exact .inr dropped
    · exact absurd (congrArg Prod.snd failed) known

/-- A round serves the peers that it comes to, in their order. -/
theorem round_serves (s : Queue σ ν) (hw : Nat → Err) (ac : Ac) (ps : List (Ctx σ ν)) (n : Nat) :
    s.Serves ac (s.roundLog hw ac ps) (s.round hw ac ps n).1 := by
  induction ps generalizing s n with
  | nil => exact .nil s ac
  | cons p ps ih =>
    have turn := s.visit_serves hw ac p
    rw [round, roundLog]
    rcases visit : s.visit hw ac p with ⟨s', outcome⟩
    rw [visit] at turn
    cases outcome with
    | skipped => exact turn.trans (ih s' n)
    | sent => exact turn.trans (ih s' (n + 1))
    | stop res => exact turn

/-- Each peer has at most one turn in a round. -/
theorem roundLog_ctx (s : Queue σ ν) (hw : Nat → Err) (ac : Ac) (ps : List (Ctx σ ν)) :
    ((s.roundLog hw ac ps).map (·.ctx)).Sublist ps := by
  induction ps generalizing s with
  | nil => exact List.Sublist.refl _
  | cons p ps ih =>
    have turn := s.attempt_ctx hw ac p
    rw [roundLog]
    rcases visit : s.visit hw ac p with ⟨s', outcome⟩
    cases outcome with
    | skipped | sent =>
      simp only [List.map_append]
      exact turn.append (ih s')
    | stop res => exact turn.trans (List.singleton_sublist.2 List.mem_cons_self)

theorem round_stop (s : Queue σ ν) (hw : Nat → Err) (ac : Ac) (ps : List (Ctx σ ν)) (n : Nat) :
    (s.round hw ac ps n).2.2 ≠ .unknown →
      ∀ x ∈ s.roundLog hw ac ps, x.left → x.res = .ok ∨ x.res = .pktDropped := by
  induction ps generalizing s n with
  | nil => exact fun _ x mem => absurd mem List.not_mem_nil
  | cons p ps ih =>
    have turn := s.attempt_res hw ac p
    rw [round, roundLog]
    rcases visit : s.visit hw ac p with ⟨s', outcome⟩
    rw [visit] at turn
    intro known x mem
    cases outcome with
    | skipped =>
      rcases List.mem_append.1 mem with here | later
      · exact turn (by rintro ⟨⟩) x here
      · exact ih s' n known x later
    | sent =>
      rcases List.mem_append.1 mem with here | later
      · exact turn (by rintro ⟨⟩) x here
      · exact ih s' (n + 1) known x later
    | stop res =>
      apply turn _ x mem
      intro failed
      exact known (Visit.stop.inj failed)

/-- A round that counts a packet has taken one out of a list. -/
theorem round_progress (s : Queue σ ν) (hw : Nat → Err) (ac : Ac) (ps : List (Ctx σ ν)) (n : Nat)
    (more : n < (s.round hw ac ps n).2.1) : ∃ p ∈ ps, leftOf p (s.roundLog hw ac ps) ≠ [] := by
  induction ps generalizing s n with
  | nil => exact absurd more (Nat.lt_irrefl n)
  | cons p ps ih =>
    have turn := s.leftOf_attempt hw ac p
    rw [round] at more
    rw [roundLog]
    rcases visit : s.visit hw ac p with ⟨s', outcome⟩
    rw [visit] at turn more
    cases outcome with
    | skipped =>
      obtain ⟨q, mem, left⟩ := ih s' n more
      refine ⟨q, List.mem_cons_of_mem p mem, ?_⟩
      simp only [leftOf_append]
      exact List.append_ne_nil_of_right_ne_nil _ left
    | sent =>
      refine ⟨p, List.mem_cons_self, ?_⟩
      simp only [leftOf_append]
      exact List.append_ne_nil_of_left_ne_nil (turn rfl) _
    | stop res => exact absurd more (Nat.lt_irrefl n)

theorem visit_peers (s : Queue σ ν) (hw : Nat → Err) (ac : Ac) (p : Ctx σ ν) :
    (s.visit hw ac p).1.peers = s.peers := by
  rcases s.visit_cases hw ac p with ⟨out, -⟩ | ⟨pkt, rest, -, -, outcome⟩
  · rw [out]
  · have same := (releasePacket_frame (s.setBuflist p ac rest) ac pkt).peers
    rcases outcome with ⟨out, -⟩ | ⟨out, -⟩ | ⟨out, -⟩ | ⟨out, -⟩
    · rw [out]
    · rw [out]
      exact same
    · rw [out]
      exact same
    · rw [out]
      exact same

theorem round_peers (s : Queue σ ν) (hw : Nat → Err) (ac : Ac) (ps : List (Ctx σ ν)) (n : Nat) :
    (s.round hw ac ps n).1.peers = s.peers := by
  induction ps generalizing s n with
  | nil => rfl
  | cons p ps ih =>
    have turn := s.visit_peers hw ac p
    rw [round]
    rcases visit : s.visit hw ac p with ⟨s', outcome⟩
    rw [visit] at turn
    cases outcome with
    | skipped => exact (ih s' n).trans turn
    | sent => exact (ih s' (n + 1)).trans turn
    | stop res => exact turn

/-! ## All rounds -/

/-- What left the lists is missing in them. -/
theorem Serves.length (h : s.Serves ac log s') (peers : s'.peers = s.peers) :
    (s'.queued ac).length + ((s.peers ac).map fun p => (leftOf p log).length).sum =
      (s.queued ac).length := by
  rw [queued, queued, peers]
  induction s.peers ac with
  | nil => rfl
  | cons p ps ih =>
    have here := congrArg List.length (h.lists p)
    rw [List.length_append] at here
    simp only [List.flatMap_cons, List.length_append, List.map_cons, List.sum_cons]
    omega

/-- A round after which there is another has made the lists shorter. -/
theorem round_shorter {n : Nat} (round : s.round hw ac (s.peers ac) 0 = (s', n + 1, .ok)) :
    (s'.queued ac).length < (s.queued ac).length := by
  have serves := s.round_serves hw ac (s.peers ac) 0
  have peers := s.round_peers hw ac (s.peers ac) 0
  have progress := s.round_progress hw ac (s.peers ac) 0
  rw [round] at serves peers progress
  obtain ⟨p, mem, left⟩ := progress (Nat.succ_pos n)
  have length := serves.length peers
  have one : (leftOf p (s.roundLog hw ac (s.peers ac))).length ≤ ((s.peers ac).map fun p =>
      (leftOf p (s.roundLog hw ac (s.peers ac))).length).sum :=
    List.single_le_sum (fun _ _ => Nat.zero_le _) _ (List.mem_map.2 ⟨p, mem, rfl⟩)
  have pos := List.length_pos_iff.2 left
  simp only at length
  omega

theorem rounds_stop {n : Nat} {res : Err} (round : s.round hw ac (s.peers ac) 0 = (s', n, res))
    (ne : res ≠ .ok) (fuel : Nat) : s.rounds hw ac (fuel + 1) = (s', res) := by
  rw [rounds, round]
  cases res with
  | ok => exact absurd rfl ne
  | noMem | noResources | prohib | pktDropped | unknown => cases n <;> rfl

/-- The loop ends: there are at most as many rounds as packets, and one more. -/
theorem rounds_end (s : Queue σ ν) (hw : Nat → Err) (ac : Ac) {fuel : Nat}
    (enough : (s.queued ac).length < fuel) :
    ∃ logs, Rounds hw ac s logs (s.rounds hw ac fuel).1 (s.rounds hw ac fuel).2 := by
  induction fuel generalizing s with
  | zero => exact absurd enough (Nat.not_lt_zero _)
  | succ fuel ih =>
    rcases round : s.round hw ac (s.peers ac) 0 with ⟨s', n, res⟩
    by_cases ok : res = .ok
    · subst ok
      rw [rounds, round]
      cases n with
      | zero => exact ⟨_, .last round⟩
      | succ n =>
        have shorter := round_shorter round
        obtain ⟨logs, rest⟩ := ih s' (by omega)
        exact ⟨_, .again round rest⟩
    · rw [rounds_stop round ok]
      exact ⟨_, .stop round ok⟩

theorem Rounds.serves {logs : List (List (Handled σ ν))} {res : Err}
    (h : Rounds hw ac s logs s' res) : s.Serves ac logs.flatten s' := by
  induction h with
  | @last s s' round =>
    have serves := s.round_serves hw ac (s.peers ac) 0
    rw [round] at serves
    rw [List.flatten_singleton]
    exact ⟨serves.lists, serves.others, serves.inHw, serves.tx, serves.within⟩
  | @again s s' s'' n logs res round _ ih =>
    have serves := s.round_serves hw ac (s.peers ac) 0
    rw [round] at serves
    rw [List.flatten_cons]
    exact serves.trans ih
  | @stop s s' n res round _ =>
    have serves := s.round_serves hw ac (s.peers ac) 0
    rw [round] at serves
    rw [List.flatten_singleton]
    exact serves

/-- In every round the peers have their turns in the order of the list. -/
theorem Rounds.turns {logs : List (List (Handled σ ν))} {res : Err}
    (h : Rounds hw ac s logs s' res) :
    ∀ log ∈ logs, (log.map (·.ctx)).Sublist (s.peers ac) := by
  induction h with
  | @last s => 
    intro log mem
    rw [List.mem_singleton.1 mem]
    exact s.roundLog_ctx hw ac (s.peers ac)
  | @again s s' s'' n logs res round _ ih =>
    have peers := s.round_peers hw ac (s.peers ac) 0
    rw [round] at peers
    intro log mem
    rcases List.mem_cons.1 mem with rfl | later
    · exact s.roundLog_ctx hw ac (s.peers ac)
    · rw [← peers]
      exact ih log later
  | @stop s =>
    intro log mem
    rw [List.mem_singleton.1 mem]
    exact s.roundLog_ctx hw ac (s.peers ac)

theorem Rounds.known {logs : List (List (Handled σ ν))} {res : Err}
    (h : Rounds hw ac s logs s' res) (known : res ≠ .unknown) :
    ∀ x ∈ logs.flatten, x.left → x.res = .ok ∨ x.res = .pktDropped := by
  induction h with
  | @last s s' round =>
    have results := s.round_stop hw ac (s.peers ac) 0
    rw [round] at results
    rw [List.flatten_singleton]
    exact results nofun
  | @again s s' s'' n logs res round _ ih =>
    have results := s.round_stop hw ac (s.peers ac) 0
    rw [round] at results
    intro x mem
    rw [List.flatten_cons] at mem
    rcases List.mem_append.1 mem with here | later
    · exact results nofun x here
    · exact ih known x later
  | @stop s s' n res round _ =>
    have results := s.round_stop hw ac (s.peers ac) 0
    rw [round] at results
    rw [List.flatten_singleton]
    exact results known

/-- What `process_packets_by_ac` does with a category: it comes to an end; in every round a peer
has at most one turn; each list loses its packets from the front, in order; no packet goes to the
hardware for a peer that is at its limit; and when the hardware is stopped, what is gone was sent
or dropped. -/
theorem processPacketsByAc_serves (s : Queue σ ν) (hw : Nat → Err) (ac : Ac) :
    ∃ logs, Rounds hw ac s logs (s.processPacketsByAc hw ac).1 (s.processPacketsByAc hw ac).2 ∧
      (∀ log ∈ logs, (log.map (·.ctx)).Sublist (s.peers ac)) ∧
      ((s.peers ac).Nodup → ∀ log ∈ logs, (log.map (·.ctx)).Nodup) ∧
      (s.processPacketsByAc hw ac).1.inHw = handedAll ac logs.flatten + s.inHw ∧
      (∀ p, (handedOf p logs.flatten).Sublist (s.buflist p ac)) ∧
      Each (fun pre x => ((s.tx x.ctx).handedOver ac (handedOf x.ctx pre).length).overLimit ac =
        false) logs.flatten ∧
      (∀ p ac', ac' ≠ ac → (s.processPacketsByAc hw ac).1.buflist p ac' = s.buflist p ac') ∧
      (∀ p, s.buflist p ac =
        leftOf p logs.flatten ++ (s.processPacketsByAc hw ac).1.buflist p ac) ∧
      ((s.processPacketsByAc hw ac).2 = .prohib →
        ∀ x ∈ logs.flatten, x.left → x.res = .ok ∨ x.res = .pktDropped) := by
  obtain ⟨logs, run⟩ := s.rounds_end hw ac (Nat.lt_succ_self (s.queued ac).length)
  have serves := run.serves
  have turns := run.turns
  have known := run.known
  refine ⟨logs, run, turns, ?_, serves.inHw, ?_, serves.within, serves.others, serves.lists, ?_⟩
  · intro nodup log mem
    exact (turns log mem).nodup nodup
  · intro p
    rw [serves.lists p]
    exact (handedOf_sublist p _).trans (List.sublist_append_left ..)
  · intro prohib
    apply known
    intro unknown
    rw [← processPacketsByAc, prohib] at unknown
    cases unknown

/-- A peer with two packets. -/
def twoQueued : Queue Unit Unit :=
  [Event.peerInit (.sta ()) 64, .enqueue () (some ()) () false .be false,
    .resume (.enqueue () ⟨0, some (), (), false, none⟩ .be false),
    .enqueue () (some ()) () false .be false,
    .resume (.enqueue () ⟨1, some (), (), false, none⟩ .be false)].foldl step
    (init (fun _ => 800) fun _ => 600)

/-- The transmit path drops the first packet, and then the ring is full. -/
def dropsFirst (id : Nat) : Err := if id = 0 then .pktDropped else .noResources

/-- The first packet is neither with the hardware nor in its list. -/
theorem dropped_packet_is_gone :
    ¬((twoQueued.processPacketsByAc dropsFirst .be).2 = .prohib →
      ∀ pkt ∈ twoQueued.buflist (.sta ()) .be,
        ⟨.sta (), .be, pkt⟩ ∉ (twoQueued.processPacketsByAc dropsFirst .be).1.inHw →
        pkt ∈ (twoQueued.processPacketsByAc dropsFirst .be).1.buflist (.sta ()) .be) := by
  decide

end Queue

end Wave300.Sq
