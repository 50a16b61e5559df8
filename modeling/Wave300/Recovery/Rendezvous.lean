import Wave300.Recovery.Pace

/-!
# The rendezvous of master and slaves

`slave_rlse_mutex` is one semaphore for all slaves and all rounds. When a round has failed the
master initiates the next one while a slow slave may still be on its way out of the last one, and a
slave that is already in the next round can take the token that is meant for the slow one. Then the
slow slave waits for the master, and the master for the slow slave. As long as no slave takes a
token before the slaves of earlier rounds have theirs, this does not happen.
-/

namespace Wave300.Recovery

open Wave300.Lib

namespace Master

/-- The master has released the slaves. -/
def released : Master → Nat
  | .finish .. | .onError _ | .returning _ => 1
  | _ => 0

/-- How often `slave_rlse_mutex` was released in a release that is not complete. -/
def releases : Master → Nat
  | .release _ _ k => k
  | _ => 0

/-- The master has begun to release the slaves. -/
def releasing (m : Master) : Nat := if 0 < m.releases then 1 else m.released

end Master

/-- `slave_rlse_mutex` is still to be acquired for the round. -/
def Initiator.waits : Initiator → Nat
  | .acquire => 1
  | _ => 0

theorem Initiator.waits_le_owes (x : Initiator) (v : Nat) : x.waits ≤ x.owes v := by
  cases x with
  | none | acquire => exact Nat.le_refl _
  | schedule => exact Nat.zero_le _

namespace Rcvry

variable {n : Nat}

/-- The rounds in which the slaves were released. -/
def released (s : Rcvry n) : Nat := s.masterDone + s.master.released

/-- A slave takes a token of `slave_rlse_mutex` only when no other slave is still in an earlier
round, and there is memory for the tasks of a round. -/
def InOrder (s : Rcvry n) : Event n → Prop
  | .slave i => (s.slaves i).phase = .synced → 0 < s.slaveRlse →
      ∀ j, (s.slaves i).passed ≤ (s.slaves j).passed
  | .initiator ok => ok = true
  | _ => True

instance (s : Rcvry n) : ∀ e, Decidable (s.InOrder e)
  | .slave _ => inferInstanceAs (Decidable (_ → _))
  | .initiator _ => inferInstanceAs (Decidable (_ = _))
  | .initiate _ | .master .. | .failTimer | .setCfg _ | .setForcedType _ => .isTrue trivial

structure Released (s : Rcvry n) : Prop where
  tokens : s.slaveRlse + s.round + ∑ i, (s.slaves i).passed =
    1 + (n + 1) * s.released + s.master.releases + s.initiator.waits
  below : ∀ type res k, s.master = .release type res k → k ≤ n
  behind : ∀ i, (s.slaves i).passed ≤ s.masterDone + s.master.releasing
  scheduled : ∀ i, (s.slaves i).scheduled + s.initiator.owes (i + 1) = s.round
  masterScheduled : s.masterScheduled + s.initiator.owes 0 = s.round

variable {s : Rcvry n}

theorem init_released (isAp : Bool) (cfg : RcvryCfg) : (init n isAp cfg).Released where
  tokens := by simp [init, released, Master.released, Master.releases, Initiator.waits]
  below := nofun
  behind := by simp [init]
  scheduled := by simp [init, Initiator.owes]
  masterScheduled := by simp [init, Initiator.owes]

/-- The master goes on without releasing, or what does not matter here changes. -/
theorem Released.move (h : s.Released) {t : Rcvry n} (slaves : t.slaves = s.slaves)
    (slaveRlse : t.slaveRlse = s.slaveRlse)
    (released : t.masterDone + t.master.released = s.masterDone + s.master.released)
    (releases : t.master.releases = 0) (before : s.master.releases = 0)
    (masterScheduled : t.masterScheduled = s.masterScheduled)
    (initiator : t.initiator = s.initiator) (round : t.round = s.round) : t.Released where
  tokens := by
    have tokens := h.tokens
    rw [Rcvry.released, before] at tokens
    rw [Rcvry.released, slaves, slaveRlse, released, releases, initiator, round]
    exact tokens
  below := by
    intro type res k at'
    rw [at'] at releases
    exact Nat.le_trans (Nat.le_of_eq releases) (Nat.zero_le n)
  behind := by
    have behind := h.behind
    rw [Master.releasing, before, if_neg (Nat.lt_irrefl 0)] at behind
    rw [Master.releasing, releases, if_neg (Nat.lt_irrefl 0), slaves, released]
    exact behind
  scheduled := by
    rw [slaves, initiator, round]
    exact h.scheduled
  masterScheduled := by
    rw [masterScheduled, initiator, round]
    exact h.masterScheduled

theorem Released.initiate (h : s.Released) (a : Alloc) (idle : s.initiator = .none) :
    (s.initiate a).Released := by
  have tokens := h.tokens
  have scheduled := h.scheduled
  have masterScheduled := h.masterScheduled
  rw [idle] at tokens scheduled masterScheduled
  obtain ⟨kept, same | ⟨free, round, initiator, inRound⟩⟩ := initiate_round s a
  · constructor
    case tokens =>
      rw [released, kept.slaves, kept.slaveRlse, kept.masterDone, kept.master, same.1, same.2.1,
        idle]
      exact tokens
    case below =>
      rw [kept.master]
      exact h.below
    case behind =>
      rw [kept.slaves, kept.masterDone, kept.master]
      exact h.behind
    case scheduled =>
      rw [kept.slaves, same.1, same.2.1, idle]
      exact scheduled
    case masterScheduled =>
      rw [kept.masterScheduled, same.1, same.2.1, idle]
      exact masterScheduled
  · constructor
    case tokens =>
      rw [released, kept.slaves, kept.slaveRlse, kept.masterDone, kept.master, round, initiator]
      simp only [Initiator.waits, released] at tokens ⊢
      omega
    case below =>
      rw [kept.master]
      exact h.below
    case behind =>
      rw [kept.slaves, kept.masterDone, kept.master]
      exact h.behind
    case scheduled =>
      intro i
      rw [kept.slaves, round, initiator]
      exact congrArg (· + 1) (scheduled i)
    case masterScheduled =>
      rw [kept.masterScheduled, round, initiator]
      exact congrArg (· + 1) masterScheduled

theorem Released.initiatorStep (h : s.Released) : (s.initiatorStep true).Released := by
  have tokens := h.tokens
  have scheduled := h.scheduled
  have masterScheduled := h.masterScheduled
  rw [Rcvry.initiatorStep]
  split
  case h_1 => exact h
  case h_2 at' =>
    rw [at'] at tokens scheduled masterScheduled
    split
    case isTrue pos =>
      refine { h with tokens := ?_, scheduled := scheduled, masterScheduled := masterScheduled }
      simp only [Initiator.waits, released] at tokens ⊢
      omega
    case isFalse => exact h
  case h_3 at' =>
    rw [at'] at tokens scheduled masterScheduled
    rw [if_pos rfl]
    refine { h with tokens := tokens, scheduled := ?_, masterScheduled := masterScheduled }
    intro i
    have before := scheduled i
    rw [Initiator.owes, if_pos (Nat.zero_le _)] at before
    rw [Initiator.owes, if_pos (Nat.le_add_left ..)]
    exact before
  case h_4 v at' =>
    rw [at'] at tokens scheduled masterScheduled
    split
    case isTrue lt =>
      rw [if_pos rfl]
      have same : ∀ j, (Function.update s.slaves ⟨v, lt⟩
          { s.slaves ⟨v, lt⟩ with scheduled := (s.slaves ⟨v, lt⟩).scheduled + 1 } j).passed =
          (s.slaves j).passed := by
        intro j
        by_cases eq : j = ⟨v, lt⟩
        · subst eq
          rw [Function.update_self]
        · rw [Function.update_of_ne eq]
      constructor
      case tokens =>
        simp only [same]
        exact tokens
      case below => exact h.below
      case behind =>
        intro j
        simp only [same]
        exact h.behind j
      case scheduled =>
        intro j
        have before := scheduled j
        by_cases eq : j = ⟨v, lt⟩
        · subst eq
          simp only [Function.update_self, Initiator.owes] at before ⊢
          rw [if_pos (Nat.le_refl _)] at before
          rw [if_neg (by omega)]
          exact before
        · have ne : j.val ≠ v := fun same => eq (Fin.ext same)
          simp only [Function.update_of_ne eq, Initiator.owes] at before ⊢
          by_cases le : v + 1 ≤ j + 1
          · rw [if_pos le] at before
            rw [if_pos (by omega)]
            exact before
          · rw [if_neg le] at before
            rw [if_neg (by omega)]
            exact before
      case masterScheduled => exact masterScheduled
    case isFalse ge =>
      refine { h with tokens := tokens, scheduled := ?_, masterScheduled := masterScheduled }
      intro j
      have before := scheduled j
      rw [Initiator.owes, if_neg (by omega)] at before
      exact before

/-- No slave passes before the master of its round has released the slaves. -/
theorem Released.behind_succ (h : s.Released) (paced : s.Paced) {i : Fin n}
    (at' : (s.slaves i).phase = .synced) (pos : 0 < s.slaveRlse)
    (first : ∀ j, (s.slaves i).passed ≤ (s.slaves j).passed) :
    (s.slaves i).passed + 1 ≤ s.masterDone + s.master.releasing := by
  by_contra ended
  have le := h.behind i
  have here : (s.slaves i).passed = s.masterDone + s.master.releasing := by omega
  -- Nobody is behind, so every token of the earlier rounds is taken.
  have sum : ∑ j, (s.slaves j).passed = n * (s.slaves i).passed := by
    apply Nat.le_antisymm
    · apply sum_le_card_mul
      intro j
      rw [here]
      exact h.behind j
    · have all := Finset.card_nsmul_le_sum Finset.univ (fun j => (s.slaves j).passed) _
        fun j _ => first j
      rwa [Finset.card_univ, Fintype.card_fin, smul_eq_mul] at all
  have tokens := h.tokens
  have taken := paced.taken i
  have scheduled := h.scheduled i
  have waits := s.initiator.waits_le_owes (i + 1)
  rw [Slave.taken, at', if_neg (by rintro ⟨⟩)] at taken
  rw [sum, here, Nat.succ_mul] at tokens
  rw [Master.releasing] at here tokens
  split at tokens
  case isTrue some =>
    rw [if_pos some] at here
    obtain ⟨type, res, k, releases⟩ : ∃ type res k, s.master = .release type res k := by
      cases m : s.master <;> rw [m] at some <;> first | exact ⟨_, _, _, rfl⟩ | cases some
    have round := (paced.inRound (by rw [releases]; rfl) (by rw [releases]; rfl)).2
    omega
  case isFalse none =>
    rw [if_neg none] at here
    rw [released] at tokens
    omega

theorem Released.slaveStep (h : s.Released) (paced : s.Paced) {i : Fin n}
    (inOrder : s.InOrder (.slave i)) : (s.slaveStep i).Released := by
  -- The slave goes on within its task.
  have move : ∀ (phase : Phase) (sync : Nat),
      { s with
        slaveSync := sync
        slaves := Function.update s.slaves i { s.slaves i with phase := phase } }.Released := by
    intro phase sync
    have same : ∀ j,
        (Function.update s.slaves i { s.slaves i with phase := phase } j).passed =
          (s.slaves j).passed ∧
        (Function.update s.slaves i { s.slaves i with phase := phase } j).scheduled =
          (s.slaves j).scheduled := by
      intro j
      by_cases eq : j = i
      · subst eq
        rw [Function.update_self]
        exact ⟨rfl, rfl⟩
      · rw [Function.update_of_ne eq]
        exact ⟨rfl, rfl⟩
    constructor
    case tokens =>
      simp only [same]
      exact h.tokens
    case below => exact h.below
    case behind =>
      intro j
      simp only [same]
      exact h.behind j
    case scheduled =>
      intro j
      simp only [same]
      exact h.scheduled j
    case masterScheduled => exact h.masterScheduled
  rw [Rcvry.slaveStep]
  split
  case h_1 =>
    split
    · exact move .started s.slaveSync
    · exact h
  case h_2 => exact move .synced _
  case h_3 at' =>
    split
    case isTrue pos =>
      have behind := h.behind_succ paced at' pos (inOrder at' pos)
      constructor
      case tokens =>
        have tokens := h.tokens
        have change : ∑ j, (Function.update s.slaves i
            { s.slaves i with passed := (s.slaves i).passed + 1, phase := .idle } j).passed + 0 =
            ∑ j, (s.slaves j).passed + 1 := by
          apply sum_add_eq_sum_add i
          · rw [Function.update_self]
          · intro j ne
            rw [Function.update_of_ne ne]
        simp only [released] at tokens change ⊢
        omega
      case below => exact h.below
      case behind =>
        intro j
        by_cases eq : j = i
        · subst eq
          simp only [Function.update_self]
          exact behind
        · simp only [Function.update_of_ne eq]
          exact h.behind j
      case scheduled =>
        intro j
        by_cases eq : j = i
        · subst eq
          simp only [Function.update_self]
          exact h.scheduled j
        · simp only [Function.update_of_ne eq]
          exact h.scheduled j
      case masterScheduled => exact h.masterScheduled
    case isFalse => exact h

theorem Released.release (h : s.Released) {type : RcvryType} {res : Bool} {k : Nat}
    (at' : s.master = .release type res k) :
    { s with
      slaveRlse := s.slaveRlse + 1
      master := if k = n then .finish type res else .release type res (k + 1) }.Released := by
  have tokens := h.tokens
  have behind := h.behind
  have below := h.below type res k at'
  have more : ∀ m : Master, m.releasing = 1 →
      ∀ i, (s.slaves i).passed ≤ s.masterDone + m.releasing := by
    intro m begun i
    have le : s.master.releasing ≤ 1 := by
      rw [at', Master.releasing]
      split
      · exact Nat.le_refl _
      · exact Nat.zero_le _
    rw [begun]
    exact (behind i).trans (Nat.add_le_add_left le _)
  rw [released, at'] at tokens
  simp only [Master.released, Master.releases, Nat.add_zero] at tokens
  split
  case isTrue last =>
    refine { h with tokens := ?_, below := nofun, behind := more (.finish type res) rfl }
    simp only [released, Master.released, Master.releases, Nat.mul_succ]
    omega
  case isFalse notLast =>
    refine { h with tokens := ?_, below := ?_, behind := more (.release type res (k + 1)) rfl }
    · simp only [released, Master.released, Master.releases, Nat.add_zero]
      omega
    · rintro type res j ⟨rfl⟩
      omega

theorem Released.workStep (h : s.Released) {stage : Stage} {type : RcvryType}
    (at' : s.master = .work stage type) (ok : Bool) : (s.workStep type ok stage).Released := by
  have move : ∀ m : Master, m.released = 0 → m.releases = 0 → { s with master := m }.Released := by
    intro m released releases
    exact h.move rfl rfl (by rw [at', released]; rfl) releases (by rw [at']; rfl) rfl rfl rfl
  cases stage with
  | isolation => exact move _ rfl rfl
  | fwDump | restoration | configuration =>
    simp only [Rcvry.workStep]
    split
    · exact move _ rfl rfl
    · exact move _ rfl rfl
  | finalization =>
    simp only [Rcvry.workStep]
    split
    · exact { move (.release type true 0) rfl rfl with }
    · exact h

theorem Released.masterStep (h : s.Released) (ok : Bool) (a : Alloc) :
    (s.masterStep ok a).Released := by
  rw [Rcvry.masterStep]
  split
  case h_1 at' =>
    split
    · exact h.move rfl rfl (by rw [at']; rfl) rfl (by rw [at']; rfl) rfl rfl rfl
    · exact h
  case h_2 at' =>
    split
    · split
      · exact h.move rfl rfl (by rw [at']; rfl) rfl (by rw [at']; rfl) rfl rfl rfl
      · exact h.move rfl rfl (by rw [at']; rfl) rfl (by rw [at']; rfl) rfl rfl rfl
    · exact h
  case h_3 at' => exact h.move rfl rfl (by rw [at']; rfl) rfl (by rw [at']; rfl) rfl rfl rfl
  case h_4 at' =>
    split
    · exact h.move rfl rfl (by rw [at']; rfl) rfl (by rw [at']; rfl) rfl rfl rfl
    · exact h
  case h_5 at' => exact h.workStep at' ok
  case h_6 at' => exact h.release at'
  case h_7 at' =>
    split
    · split
      · exact h.move rfl rfl (by rw [at']; rfl) rfl (by rw [at']; rfl) rfl rfl rfl
      · exact h.move rfl rfl (by rw [at']; rfl) rfl (by rw [at']; rfl) rfl rfl rfl
    · exact h
  case h_8 type at' =>
    split
    case isTrue idle =>
      have same : (s.initiate a).master = .onError type := (initiate_round s a).1.master.trans at'
      exact (h.initiate a idle).move rfl rfl (by rw [same]; rfl) rfl (by rw [same]; rfl) rfl rfl rfl
    case isFalse => exact h
  case h_9 at' =>
    split
    · exact h.move rfl rfl (by rw [at']; rfl) rfl (by rw [at']; rfl) rfl rfl rfl
    · exact h

theorem Released.step (h : s.Released) (paced : s.Paced) {e : Event n} (inOrder : s.InOrder e) :
    (s.step e).Released := by
  cases e with
  | initiate a =>
    rw [Rcvry.step]
    split
    case isTrue idle => exact h.initiate a idle
    case isFalse => exact h
  | initiator ok =>
    rw [show ok = true from inOrder]
    exact h.initiatorStep
  | master ok a => exact h.masterStep ok a
  | slave i => exact h.slaveStep paced inOrder
  | failTimer | setCfg | setForcedType =>
    rw [Rcvry.step]
    split
    · exact { h with }
    · exact h

/-- While the master recovers, every slave is blocked in the same round. -/
theorem Released.blocked (h : s.Released) (paced : s.Paced) {stage : Stage} {type : RcvryType}
    (at' : s.master = .work stage type) :
    s.slaveRlse = 0 ∧
      ∀ i, (s.slaves i).phase = .synced ∧ (s.slaves i).passed = s.masterDone := by
  have round := (paced.inRound (by rw [at']; rfl) (by rw [at']; rfl)).2
  have blocked : ∀ i, (s.slaves i).phase = .synced ∧ (s.slaves i).passed = s.masterDone := by
    intro i
    have met := paced.met i
    have behind := h.behind i
    rw [syncs, at', Slave.synced] at met
    rw [at'] at behind
    simp only [Master.synced, Master.releasing, Master.releases, Master.released, lt_self_iff_false,
      if_false, Nat.add_zero] at met behind
    split at met
    case isTrue synced => exact ⟨synced, by omega⟩
    case isFalse => omega
  refine ⟨?_, blocked⟩
  have tokens := h.tokens
  have scheduled := h.masterScheduled
  have taken := paced.masterTaken
  have waits := s.initiator.waits_le_owes 0
  have sum : ∑ i, (s.slaves i).passed = n * s.masterDone := by
    rw [Finset.sum_congr rfl fun i _ => (blocked i).2, Finset.sum_const, Finset.card_univ,
      Fintype.card_fin, smul_eq_mul]
  rw [sum, released, at', round, Nat.succ_mul] at tokens
  rw [at'] at taken
  simp only [Master.released, Master.releases, Master.busy, Nat.add_zero] at tokens taken
  omega

/-! ## Nobody waits forever -/

/-- All recovery tasks are done. -/
def AtRest (s : Rcvry n) : Prop :=
  s.initiator = .none ∧ s.master = .idle ∧ s.masterDone = s.masterScheduled ∧
    ∀ i, (s.slaves i).phase = .idle ∧ (s.slaves i).passed = (s.slaves i).scheduled

/-- A step of `rcvry_initiate`, of `master_recovery` or of `slave_recovery`. -/
def Event.isTask : Event n → Bool
  | .initiator _ | .master .. | .slave _ => true
  | _ => false

/-- A recovery task can go on. -/
def CanProceed (s : Rcvry n) : Prop := ∃ e : Event n, e.isTask = true ∧ s.InOrder e ∧ s.step e ≠ s

theorem CanProceed.master (ok : Bool) (a : Alloc)
    (moves : (s.masterStep ok a).master ≠ s.master) : s.CanProceed :=
  ⟨.master ok a, rfl, trivial, fun same => moves (congrArg Rcvry.master same)⟩

theorem CanProceed.slave {i : Fin n} (inOrder : s.InOrder (.slave i))
    (moves : ((s.slaveStep i).slaves i).phase ≠ (s.slaves i).phase) : s.CanProceed :=
  ⟨.slave i, rfl, inOrder, fun same => moves (congrArg (fun t => (t.slaves i).phase) same)⟩

theorem canProceed_of_idle {i : Fin n} (at' : (s.slaves i).phase = .idle)
    (more : (s.slaves i).passed < (s.slaves i).scheduled) : s.CanProceed := by
  apply CanProceed.slave (i := i)
  · intro synced
    rw [at'] at synced
    cases synced
  · simp [slaveStep, at', more]

theorem canProceed_of_started {i : Fin n} (at' : (s.slaves i).phase = .started) :
    s.CanProceed := by
  apply CanProceed.slave (i := i)
  · intro synced
    rw [at'] at synced
    cases synced
  · simp [slaveStep, at']

/-- Of the slaves that are behind, one that is furthest behind can go on. -/
theorem Released.slave_proceeds (h : s.Released) (idle : s.initiator = .none)
    (pos : 0 < s.slaveRlse) {i : Fin n} (behind : (s.slaves i).passed < s.round) :
    s.CanProceed := by
  obtain ⟨m, -, least⟩ := Finset.exists_min_image Finset.univ (fun j => (s.slaves j).passed)
    ⟨i, Finset.mem_univ i⟩
  have late : (s.slaves m).passed < s.round :=
    Nat.lt_of_le_of_lt (least i (Finset.mem_univ i)) behind
  have scheduled := h.scheduled m
  rw [idle] at scheduled
  change (s.slaves m).scheduled = s.round at scheduled
  cases at' : (s.slaves m).phase with
  | idle => exact canProceed_of_idle at' (scheduled ▸ late)
  | started => exact canProceed_of_started at'
  | synced =>
    apply CanProceed.slave (i := m)
    · intro _ _ j
      exact least j (Finset.mem_univ j)
    · simp [Rcvry.slaveStep, at', pos]

theorem Released.sum_passed_le (h : s.Released) (none : s.master.releasing = 0) :
    ∑ i, (s.slaves i).passed ≤ n * s.masterDone := by
  apply sum_le_card_mul
  intro i
  have behind := h.behind i
  rwa [none] at behind

/-- The master waits for a slave. -/
theorem Released.sync_proceeds (h : s.Released) (paced : s.Paced) (idle : s.initiator = .none)
    {k : Nat} (at' : s.master = .sync k) (none : s.slaveSync = 0) : s.CanProceed := by
  have round := (paced.inRound (by rw [at']; rfl) (by rw [at']; rfl)).2
  obtain ⟨i, late⟩ : ∃ i, (s.slaves i).synced ≤ s.masterDone := by
    by_contra all
    simp only [not_exists, Nat.not_le] at all
    have tokens := paced.tokens
    have below := paced.below k at'
    have sum := Finset.card_nsmul_le_sum Finset.univ (fun i => (s.slaves i).synced)
      (s.masterDone + 1) fun i _ => all i
    rw [Finset.card_univ, Fintype.card_fin, smul_eq_mul, Nat.mul_succ] at sum
    rw [syncs, at', none] at tokens
    simp only [Master.synced, Master.acquired, Nat.add_zero] at tokens
    omega
  have scheduled := h.scheduled i
  rw [idle] at scheduled
  change (s.slaves i).scheduled = s.round at scheduled
  rw [Slave.synced] at late
  cases phase : (s.slaves i).phase with
  | started => exact canProceed_of_started phase
  | idle =>
    apply canProceed_of_idle phase
    rw [phase, if_neg (by rintro ⟨⟩)] at late
    omega
  | synced =>
    rw [phase, if_pos rfl] at late
    have tokens := h.tokens
    have fewer : ∑ j, (s.slaves j).passed < n * s.masterDone := by
      by_contra all
      have same := eq_of_sum_eq (f := fun j => (s.slaves j).passed) (c := s.masterDone)
        (fun j => by have behind := h.behind j; rwa [at'] at behind) (Nat.not_lt.1 all) i
      omega
    rw [released, at', idle, round, Nat.succ_mul] at tokens
    simp only [Master.released, Master.releases, Initiator.waits, Nat.add_zero] at tokens
    exact h.slave_proceeds idle (by omega) (i := i) (by omega)

theorem Released.rest_proceeds (h : s.Released) (paced : s.Paced) (idle : s.initiator = .none)
    (at' : s.master = .idle) (busy : ¬ s.AtRest) : s.CanProceed := by
  by_cases more : s.masterDone < s.masterScheduled
  case pos =>
    apply CanProceed.master true .ok
    simp [Rcvry.masterStep, at', more]
  case neg =>
    have taken := paced.masterTaken
    have all := h.masterScheduled
    have tokens := h.tokens
    have sum := h.sum_passed_le (by rw [at']; rfl)
    rw [at'] at taken
    rw [idle] at all
    rw [released, at', idle, Nat.succ_mul] at tokens
    simp only [Master.busy, Initiator.owes, Master.released, Master.releases, Initiator.waits,
      Nat.add_zero] at taken all tokens
    obtain ⟨i, late⟩ : ∃ i, (s.slaves i).passed < s.round := by
      by_contra none
      simp only [not_exists, Nat.not_lt] at none
      apply busy
      refine ⟨idle, at', by omega, fun i => ?_⟩
      have here := paced.taken i
      have scheduled := h.scheduled i
      have through := none i
      rw [idle] at scheduled
      simp only [Initiator.owes, Nat.add_zero] at scheduled
      rw [Slave.taken] at here
      split at here
      case isTrue phase => exact ⟨phase, by omega⟩
      case isFalse => omega
    exact h.slave_proceeds idle (by omega) late

/-- A round can be initiated: each round before it has left a token. -/
theorem Released.token_left (h : s.Released) (paced : s.Paced) (at' : s.initiator = .acquire) :
    0 < s.slaveRlse := by
  have tokens := h.tokens
  have all := h.masterScheduled
  have taken := paced.masterTaken
  have rounds := paced.rounds
  have current := Bool.toNat_le s.inRound
  rw [at'] at tokens all
  rw [finished] at rounds
  simp only [Initiator.waits, Initiator.owes, released] at tokens all
  have ended : s.master.released = s.master.finished ∧
      s.master.releasing = s.master.finished ∧ s.master.releases = 0 := by
    have le : s.master.busy ≤ s.master.finished := by omega
    cases m : s.master <;> rw [m] at le <;> first | exact ⟨rfl, rfl, rfl⟩ | cases le
  have sum : ∑ i, (s.slaves i).passed ≤ n * (s.masterDone + s.master.finished) := by
    apply sum_le_card_mul
    intro i
    rw [← ended.2.1]
    exact h.behind i
  rw [ended.1, ended.2.2, Nat.succ_mul] at tokens
  omega

/-- Unless all tasks are done, one of them can go on. -/
theorem Released.proceeds (h : s.Released) (paced : s.Paced) (busy : ¬ s.AtRest) :
    s.CanProceed := by
  cases at' : s.initiator with
  | acquire =>
    have pos := h.token_left paced at'
    refine ⟨.initiator true, rfl, rfl, fun same => ?_⟩
    have moved := congrArg Rcvry.initiator same
    simp [Rcvry.step, Rcvry.initiatorStep, at', pos] at moved
  | schedule v =>
    refine ⟨.initiator true, rfl, rfl, fun same => ?_⟩
    have moved := congrArg Rcvry.initiator same
    cases v with
    | zero => simp [Rcvry.step, Rcvry.initiatorStep, at'] at moved
    | succ v =>
      by_cases lt : v < n
      · simp [Rcvry.step, Rcvry.initiatorStep, at', lt] at moved
      · simp [Rcvry.step, Rcvry.initiatorStep, at', lt] at moved
  | none =>
    cases m : s.master with
    | idle => exact h.rest_proceeds paced at' m busy
    | sync k =>
      by_cases pos : 0 < s.slaveSync
      · apply CanProceed.master true .ok
        simp only [Rcvry.masterStep, m, if_pos pos]
        split
        · rintro ⟨⟩
        · simp
      · exact h.sync_proceeds paced at' m (by omega)
    | syncBack =>
      apply CanProceed.master true .ok
      simp [Rcvry.masterStep, m]
    | begin =>
      apply CanProceed.master true .ok
      simp [Rcvry.masterStep, m, at']
    | work stage type =>
      apply CanProceed.master true .ok
      cases stage with
      | isolation =>
        simp only [Rcvry.masterStep, m, Rcvry.workStep]
        split <;> simp
      | fwDump | restoration | configuration => simp [Rcvry.masterStep, m, Rcvry.workStep]
      | finalization => simp [Rcvry.masterStep, m, Rcvry.workStep, at']
    | release type res k =>
      apply CanProceed.master true .ok
      simp only [Rcvry.masterStep, m]
      split <;> simp
    | finish type res =>
      apply CanProceed.master true .ok
      cases res <;> simp [Rcvry.masterStep, m, at']
    | onError type =>
      apply CanProceed.master true .ok
      simp [Rcvry.masterStep, m, at']
    | returning type =>
      apply CanProceed.master true .ok
      simp [Rcvry.masterStep, m, at']

end Rcvry

open Rcvry

variable {n : Nat}

/-- The master recovers only while every slave is blocked in the same round, no slave passes before
the master of its round has released the slaves, and unless all tasks are done, one of them can go
on. -/
theorem rendezvous {isAp : Bool} {cfg : RcvryCfg} {s : Rcvry n}
    (run : Runs step InOrder (init n isAp cfg) s) :
    (∀ stage type, s.master = .work stage type →
      s.slaveRlse = 0 ∧
        ∀ i, (s.slaves i).phase = .synced ∧ (s.slaves i).passed = s.masterDone) ∧
    (∀ i, (s.slaves i).passed ≤ s.masterDone + s.master.releasing) ∧
    (¬ s.AtRest → s.CanProceed) := by
  have both : s.Paced ∧ s.Released := by
    apply run.invariant
    · exact ⟨init_paced isAp cfg, init_released isAp cfg⟩
    · rintro s e ⟨paced, released⟩ inOrder
      exact ⟨paced.step e, released.step paced inOrder⟩
  obtain ⟨paced, released⟩ := both
  exact ⟨fun _ _ at' => released.blocked paced at', released.behind, released.proceeds paced⟩

/-- A round with two slaves fails in its restoration; the first slave is released and the second is
slow, and the master initiates the next round. -/
def failedRound : List (Event 2) :=
  let first : Fin 2 := ⟨0, Nat.zero_lt_two⟩
  let second : Fin 2 := ⟨1, Nat.one_lt_two⟩
  [[.initiate .ok], List.replicate 5 (.initiator true), [.master true .ok],
    List.replicate 2 (.slave first), List.replicate 2 (.slave second),
    List.replicate 7 (.master true .ok), [.master false .ok], List.replicate 3 (.master true .ok),
    [.slave first], List.replicate 2 (.master true .ok), List.replicate 5 (.initiator true)].flatten

theorem rendezvous_next_round :
    let s := failedRound.foldl step (init 2 true defaultCfg)
    (s.slaves 0).passed = 1 ∧ (s.slaves 1).phase = .synced ∧ s.CanProceed := by
  intro s
  have run : Runs step InOrder (init 2 true defaultCfg) s := by
    apply Runs.of_allowed
    decide +kernel
  have slow : (s.slaves 1).phase = .synced := by decide +kernel
  refine ⟨by decide +kernel, slow, (rendezvous run).2.2 ?_⟩
  rintro ⟨-, -, -, rest⟩
  rw [(rest 1).1] at slow
  cases slow

/-- The first slave takes the token of the second one in the next round. It passes before the master
of that round has released anybody, and the master and the second slave wait for each other. -/
def stolenToken : List (Event 2) :=
  let first : Fin 2 := ⟨0, Nat.zero_lt_two⟩
  [failedRound, List.replicate 3 (.slave first), List.replicate 4 (.master true .ok)].flatten

theorem waiting_for_each_other :
    let s := stolenToken.foldl step (init 2 true defaultCfg)
    (s.slaves 0).passed = 2 ∧ s.masterDone + s.master.releasing = 1 ∧ ¬ s.AtRest ∧
      ∀ e : Event 2, e.isTask = true → s.step e = s := by
  intro s
  have idle : s.initiator = .none := by decide +kernel
  have master : s.master = .sync 2 ∧ s.slaveSync = 0 := by decide +kernel
  have first : s.slaves 0 = ⟨2, 2, .idle⟩ := by decide +kernel
  have second : s.slaves 1 = ⟨2, 0, .synced⟩ ∧ s.slaveRlse = 0 := by decide +kernel
  refine ⟨by decide +kernel, by decide +kernel, ?_, ?_⟩
  · rintro ⟨-, rest, -⟩
    rw [rest] at master
    cases master.1
  · intro e task
    cases e with
    | initiator ok => rw [step, initiatorStep, idle]
    | master ok a =>
      rw [step, masterStep, master.1]
      exact if_neg (by rw [master.2]; exact Nat.lt_irrefl 0)
    | slave i =>
      have stuck : ∀ i : Fin 2, i = 0 ∨ i = 1 := by decide
      rcases stuck i with rfl | rfl
      · rw [step, slaveStep, first]
        exact if_neg (Nat.lt_irrefl 2)
      · rw [step, slaveStep, second.1]
        exact if_neg (by rw [second.2]; exact Nat.lt_irrefl 0)
    | initiate | failTimer | setCfg | setForcedType => cases task

end Wave300.Recovery
