import Wave300.Lib.Trace
import Wave300.Recovery.Rounds

/-!
# Who is in which round

What every interleaving keeps: no serializer is ahead of the rounds that were initiated, a round is
initiated only when the one before it has finished, and the tokens of `slave_sync_mutex` balance. So
the master is past its waiting only when every slave has come to the same round.
-/

namespace Wave300.Recovery

open Wave300.Lib

namespace Master

/-- How often `slave_sync_mutex` was acquired, until one release puts it right. -/
def acquired (n : Nat) : Master → Nat
  | .sync k => k
  | .syncBack => n + 1
  | _ => 0

def busy : Master → Nat
  | .idle => 0
  | _ => 1

/-- The master has met the slaves. -/
def synced : Master → Nat
  | .idle | .sync _ | .syncBack => 0
  | _ => 1

/-- The round is over for `current_rcvry_type`. -/
def finished : Master → Nat
  | .onError _ | .returning _ => 1
  | _ => 0

end Master

/-- The task of a VAP is still to be scheduled. -/
def Initiator.owes (vap : Nat) : Initiator → Nat
  | .none => 0
  | .acquire => 1
  | .schedule v => if v ≤ vap then 1 else 0

namespace Slave

/-- How often the slave has released `slave_sync_mutex`. -/
def synced (x : Slave) : Nat := x.passed + if x.phase = .synced then 1 else 0

/-- How many tasks the slave has begun. -/
def taken (x : Slave) : Nat := x.passed + if x.phase = .idle then 0 else 1

theorem synced_le_taken (x : Slave) : x.synced ≤ x.taken := by
  rcases x with ⟨_, _, _ | _ | _⟩ <;> simp [synced, taken]

end Slave

namespace Rcvry

variable {n : Nat}

def inRound (s : Rcvry n) : Bool := s.currentRcvryType = .fast ∨ s.currentRcvryType = .full

/-- The rounds in which the master has met the slaves. -/
def syncs (s : Rcvry n) : Nat := s.masterDone + s.master.synced

/-- The rounds that are over for `current_rcvry_type`. -/
def finished (s : Rcvry n) : Nat := s.masterDone + s.master.finished

structure Paced (s : Rcvry n) : Prop where
  tokens : s.slaveSync + n * s.syncs + s.master.acquired n = 1 + ∑ i, (s.slaves i).synced
  below : ∀ k, s.master = .sync k → k ≤ n
  met : ∀ i, s.syncs ≤ (s.slaves i).synced
  taken : ∀ i, (s.slaves i).taken ≤ (s.slaves i).scheduled
  scheduled : ∀ i, (s.slaves i).scheduled + s.initiator.owes (i + 1) ≤ s.round
  masterTaken : s.masterDone + s.master.busy ≤ s.masterScheduled
  masterScheduled : s.masterScheduled + s.initiator.owes 0 ≤ s.round
  rounds : s.round ≤ s.finished + s.inRound.toNat

variable {s : Rcvry n}

theorem init_paced (isAp : Bool) (cfg : RcvryCfg) : (init n isAp cfg).Paced where
  tokens := by simp [init, syncs, Master.synced, Master.acquired, Slave.synced]
  below := nofun
  met := by simp [init, syncs, Master.synced]
  taken := by simp [init, Slave.taken]
  scheduled := by simp [init, Initiator.owes]
  masterTaken := by simp [init, Master.busy]
  masterScheduled := by simp [init, Initiator.owes]
  rounds := by simp [init]

theorem Paced.synced_le (h : s.Paced) (i : Fin n) : (s.slaves i).synced ≤ s.round := by
  have first := (s.slaves i).synced_le_taken
  have second := h.taken i
  have third := h.scheduled i
  omega

/-! ## What `rcvry_initiate` leaves alone -/

/-- The serializers and the mutexes are left alone. -/
structure Kept (s t : Rcvry n) : Prop where
  slaves : t.slaves = s.slaves
  slaveSync : t.slaveSync = s.slaveSync
  slaveRlse : t.slaveRlse = s.slaveRlse
  master : t.master = s.master
  masterScheduled : t.masterScheduled = s.masterScheduled
  masterDone : t.masterDone = s.masterDone

theorem chooseType_eq (s : Rcvry n) : ∃ fast full forced current types, s.chooseType =
    { s with
      fastRcvryCnt := fast
      fullRcvryCnt := full
      forcedRcvryType := forced
      currentRcvryType := current
      types := types } := by
  rw [chooseType, determineType]
  split
  · exact ⟨_, _, _, _, _, rfl⟩
  split
  · exact ⟨_, _, _, _, _, rfl⟩
  split
  · exact ⟨_, _, _, _, _, rfl⟩
  split
  · exact ⟨_, _, _, _, _, rfl⟩
  split
  · exact ⟨_, _, _, _, _, rfl⟩
  · exact ⟨_, _, _, _, _, rfl⟩

theorem chooseType_ne_undef (s : Rcvry n) : s.chooseType.currentRcvryType ≠ .undef := by
  change s.determineType.currentRcvryType ≠ .undef
  rw [determineType]
  split
  · change (if _ then _ else _) ≠ _
    split <;> exact nofun
  split
  case isTrue forced => exact forced
  split
  · exact nofun
  split
  · exact nofun
  split
  · exact nofun
  · exact nofun

theorem giveUp_eq (s : Rcvry n) : ∃ tasks, s.giveUp =
    { s with
      tasks := tasks
      frees := (if s.errorOnRcvry then s.vapInfo.toList else []) ++ s.frees
      errorOnRcvry := false } := by
  rw [giveUp]
  cases error : s.errorOnRcvry with
  | true => exact ⟨_, rfl⟩
  | false => exact ⟨_, rfl⟩

/-- What `rcvry_initiate` does. -/
theorem initiate_cases (s : Rcvry n) (a : Alloc) :
    s.currentRcvryType ≠ .undef ∧ s.initiate a = { s with failTimer := false } ∨
    s.currentRcvryType = .undef ∧ ∃ t, t = { s with failTimer := false }.chooseType ∧
      ((t.currentRcvryType = .none ∨ t.currentRcvryType = .complete) ∧ s.initiate a = t.giveUp ∨
        t.inRound = true ∧ s.initiate a = t.newRound a) := by
  rw [initiate]
  by_cases free : s.currentRcvryType = .undef
  case neg => exact .inl ⟨free, if_pos free⟩
  case pos =>
    refine .inr ⟨free, _, rfl, ?_⟩
    rw [if_neg (not_not_intro free)]
    by_cases ended : { s with failTimer := false }.chooseType.currentRcvryType = .none ∨
        { s with failTimer := false }.chooseType.currentRcvryType = .complete
    case pos => exact .inl ⟨ended, if_pos ended⟩
    case neg =>
      refine .inr ⟨?_, if_neg ended⟩
      have chosen := chooseType_ne_undef { s with failTimer := false }
      rw [not_or] at ended
      rw [inRound, decide_eq_true_eq]
      generalize { s with failTimer := false }.chooseType.currentRcvryType = type at ended chosen
      cases type <;> simp_all

/-- A round is initiated, with the table of the last one or a new one, or there is no memory. -/
theorem newRound_cases (s : Rcvry n) (a : Alloc) :
    s.errorOnRcvry = true ∧ s.newRound a = { s with initiator := .acquire, round := s.round + 1 } ∨
    s.errorOnRcvry = false ∧ a = .ok ∧ s.newRound a =
      { s with
        chain := s.chain + 1
        vapInfo := some (s.chain + 1)
        allocs := (s.chain + 1) :: s.allocs
        initiator := .acquire
        round := s.round + 1 } ∨
    s.errorOnRcvry = false ∧ a = .noArray ∧ s.newRound a =
      { s with chain := s.chain + 1, vapInfo := none, errorOnRcvry := false } ∨
    s.errorOnRcvry = false ∧ a = .noInfo ∧ s.newRound a =
      { s with
        chain := s.chain + 1
        vapInfo := some (s.chain + 1)
        allocs := (s.chain + 1) :: s.allocs
        frees := (s.chain + 1) :: s.frees
        errorOnRcvry := false } := by
  rw [newRound]
  cases error : s.errorOnRcvry with
  | true => exact .inl ⟨rfl, rfl⟩
  | false =>
    cases a with
    | ok => exact .inr (.inl ⟨rfl, rfl, by simp [vapInfoCreate]⟩)
    | noArray => exact .inr (.inr (.inl ⟨rfl, rfl, by simp [vapInfoCreate]⟩))
    | noInfo => exact .inr (.inr (.inr ⟨rfl, rfl, by simp [vapInfoCreate]⟩))

/-- A round is in progress while the master is before its end. -/
theorem Paced.inRound (h : s.Paced) (busy : s.master.busy = 1) (going : s.master.finished = 0) :
    s.inRound = true ∧ s.round = s.masterDone + 1 := by
  have taken := h.masterTaken
  have scheduled := h.masterScheduled
  have rounds := h.rounds
  rw [finished, going] at rounds
  cases current : s.inRound with
  | false =>
    rw [current, Bool.toNat_false] at rounds
    omega
  | true =>
    rw [current, Bool.toNat_true] at rounds
    exact ⟨rfl, by omega⟩

theorem sum_le_card_mul {f : Fin n → Nat} {c : Nat} (le : ∀ i, f i ≤ c) : ∑ i, f i ≤ n * c := by
  have all := Finset.sum_le_card_nsmul Finset.univ f c fun i _ => le i
  rwa [Finset.card_univ, Fintype.card_fin, smul_eq_mul] at all

/-- Values that are bounded, and together as large as the bound allows. -/
theorem eq_of_sum_eq {f : Fin n → Nat} {c : Nat} (le : ∀ i, f i ≤ c) (sum : n * c ≤ ∑ i, f i)
    (i : Fin n) : f i = c := by
  have all : ∑ i, f i = ∑ _i : Fin n, c := by
    apply Nat.le_antisymm
    · exact Finset.sum_le_sum fun i _ => le i
    · rwa [Finset.sum_const, Finset.card_univ, Fintype.card_fin, smul_eq_mul]
  exact (Finset.sum_eq_sum_iff_of_le fun i _ => le i).1 all i (Finset.mem_univ i)

/-- When the master has all the tokens, every slave is in its round. -/
theorem Paced.all_synced (h : s.Paced) (at' : s.master = .syncBack) (i : Fin n) :
    (s.slaves i).synced = s.masterDone + 1 := by
  obtain ⟨-, round⟩ := h.inRound (by rw [at']; rfl) (by rw [at']; rfl)
  refine eq_of_sum_eq (f := fun j => (s.slaves j).synced) ?_ ?_ i
  · intro j
    rw [← round]
    exact h.synced_le j
  · have tokens := h.tokens
    rw [syncs, at'] at tokens
    simp only [Master.synced, Master.acquired, Nat.add_zero] at tokens
    rw [Nat.mul_succ]
    omega

/-! ## The steps -/

/-- The master goes on within its round, or what does not matter here changes. -/
theorem Paced.move (h : s.Paced) {t : Rcvry n} (slaves : t.slaves = s.slaves)
    (slaveSync : t.slaveSync = s.slaveSync) (masterDone : t.masterDone = s.masterDone)
    (masterScheduled : t.masterScheduled = s.masterScheduled)
    (acquired : t.master.acquired n = s.master.acquired n) (busy : t.master.busy = s.master.busy)
    (synced : t.master.synced = s.master.synced) (ended : t.master.finished = s.master.finished)
    (below : ∀ k, t.master = .sync k → k ≤ n) (initiator : t.initiator = s.initiator)
    (round : t.round = s.round) (inRound : s.inRound = true → t.inRound = true) : t.Paced where
  tokens := by
    rw [syncs, slaves, slaveSync, masterDone, acquired, synced]
    exact h.tokens
  below := below
  met := by
    rw [syncs, slaves, masterDone, synced]
    exact h.met
  taken := by
    rw [slaves]
    exact h.taken
  scheduled := by
    rw [slaves, initiator, round]
    exact h.scheduled
  masterTaken := by
    rw [masterDone, masterScheduled, busy]
    exact h.masterTaken
  masterScheduled := by
    rw [masterScheduled, initiator, round]
    exact h.masterScheduled
  rounds := by
    have rounds := h.rounds
    rw [finished, masterDone, ended, round]
    refine rounds.trans (Nat.add_le_add_left ?_ _)
    cases current : s.inRound with
    | false => exact Nat.zero_le _
    | true => rw [inRound current]

/-- A round is initiated, or none. -/
theorem initiate_round (s : Rcvry n) (a : Alloc) : Kept s (s.initiate a) ∧
    ((s.initiate a).round = s.round ∧ (s.initiate a).initiator = s.initiator ∧
        (s.inRound = true → (s.initiate a).inRound = true) ∨
      s.currentRcvryType = .undef ∧ (s.initiate a).round = s.round + 1 ∧
        (s.initiate a).initiator = .acquire ∧ (s.initiate a).inRound = true) := by
  rcases initiate_cases s a with ⟨-, eq⟩ | ⟨free, t, chosen, ended | ⟨inRound, eq⟩⟩
  · rw [eq]
    exact ⟨⟨rfl, rfl, rfl, rfl, rfl, rfl⟩, .inl ⟨rfl, rfl, id⟩⟩
  · obtain ⟨fast, full, forced, current, types, same⟩ := chooseType_eq { s with failTimer := false }
    obtain ⟨tasks, gone⟩ := giveUp_eq t
    rw [ended.2, gone, chosen, same]
    refine ⟨⟨rfl, rfl, rfl, rfl, rfl, rfl⟩, .inl ⟨rfl, rfl, ?_⟩⟩
    intro inRound
    rw [Rcvry.inRound, free] at inRound
    cases inRound
  · obtain ⟨fast, full, forced, current, types, same⟩ := chooseType_eq { s with failTimer := false }
    rw [← chosen] at same
    have none : s.inRound = true → False := by
      intro inRound
      rw [Rcvry.inRound, free] at inRound
      cases inRound
    rw [eq]
    rcases newRound_cases t a with ⟨-, new⟩ | ⟨-, -, new⟩ | ⟨-, -, new⟩ | ⟨-, -, new⟩
    all_goals
      rw [new, same]
      refine ⟨⟨rfl, rfl, rfl, rfl, rfl, rfl⟩, ?_⟩
    · exact .inr ⟨free, rfl, rfl, by rw [same] at inRound; exact inRound⟩
    · exact .inr ⟨free, rfl, rfl, by rw [same] at inRound; exact inRound⟩
    · exact .inl ⟨rfl, rfl, fun inRound => (none inRound).elim⟩
    · exact .inl ⟨rfl, rfl, fun inRound => (none inRound).elim⟩

theorem Paced.initiate (h : s.Paced) (a : Alloc) (idle : s.initiator = .none) :
    (s.initiate a).Paced := by
  obtain ⟨kept, same | ⟨free, round, initiator, inRound⟩⟩ := initiate_round s a
  · exact h.move kept.slaves kept.slaveSync kept.masterDone kept.masterScheduled
      (by rw [kept.master]) (by rw [kept.master]) (by rw [kept.master]) (by rw [kept.master])
      (by rw [kept.master]; exact h.below) same.2.1 same.1 same.2.2
  · constructor
    case tokens =>
      rw [syncs, kept.slaves, kept.slaveSync, kept.masterDone, kept.master]
      exact h.tokens
    case below =>
      rw [kept.master]
      exact h.below
    case met =>
      rw [syncs, kept.slaves, kept.masterDone, kept.master]
      exact h.met
    case taken =>
      rw [kept.slaves]
      exact h.taken
    case scheduled =>
      intro i
      have scheduled := h.scheduled i
      rw [idle] at scheduled
      rw [kept.slaves, initiator, round]
      exact Nat.add_le_add_right scheduled 1
    case masterTaken =>
      rw [kept.masterDone, kept.masterScheduled, kept.master]
      exact h.masterTaken
    case masterScheduled =>
      have scheduled := h.masterScheduled
      rw [idle] at scheduled
      rw [kept.masterScheduled, initiator, round]
      exact Nat.add_le_add_right scheduled 1
    case rounds =>
      have rounds := h.rounds
      have none : s.inRound = false := by rw [Rcvry.inRound, free]; rfl
      rw [none] at rounds
      rw [finished, kept.masterDone, kept.master, round, inRound]
      exact Nat.add_le_add_right rounds 1

/-- A slave goes on. -/
theorem Paced.slave (h : s.Paced) (i : Fin n) {x : Slave} (sync rlse : Nat)
    (tokens : sync + (s.slaves i).synced = s.slaveSync + x.synced)
    (met : (s.slaves i).synced ≤ x.synced) (taken : x.taken ≤ x.scheduled)
    (scheduled : x.scheduled = (s.slaves i).scheduled) :
    { s with
      slaveSync := sync
      slaveRlse := rlse
      slaves := Function.update s.slaves i x }.Paced := by
  have others : ∀ j, j ≠ i → Function.update s.slaves i x j = s.slaves j :=
    fun j ne => Function.update_of_ne ne ..
  constructor
  case tokens =>
    have before := h.tokens
    have change : ∑ j, (Function.update s.slaves i x j).synced + (s.slaves i).synced =
        ∑ j, (s.slaves j).synced + x.synced := by
      apply sum_add_eq_sum_add i
      · rw [Function.update_self]
        exact Nat.add_comm _ _
      · intro j ne
        rw [others j ne]
    simp only [syncs] at before ⊢
    omega
  case below => exact h.below
  case met =>
    intro j
    by_cases same : j = i
    · subst same
      simp only [Function.update_self]
      exact (h.met j).trans met
    · simp only [others j same]
      exact h.met j
  case taken =>
    intro j
    by_cases same : j = i
    · subst same
      simp only [Function.update_self]
      exact taken
    · simp only [others j same]
      exact h.taken j
  case scheduled =>
    intro j
    by_cases same : j = i
    · subst same
      simp only [Function.update_self, scheduled]
      exact h.scheduled j
    · simp only [others j same]
      exact h.scheduled j
  case masterTaken => exact h.masterTaken
  case masterScheduled => exact h.masterScheduled
  case rounds => exact h.rounds

theorem Paced.slaveStep (h : s.Paced) (i : Fin n) : (s.slaveStep i).Paced := by
  have taken := h.taken i
  rw [Slave.taken] at taken
  rw [Rcvry.slaveStep]
  split
  case h_1 at' =>
    split
    case isTrue more =>
      refine h.slave i s.slaveSync s.slaveRlse ?_ ?_ ?_ rfl
      · simp [Slave.synced, at']
      · simp [Slave.synced, at']
      · exact more
    case isFalse => exact h
  case h_2 at' =>
    refine h.slave i _ s.slaveRlse ?_ ?_ ?_ rfl
    · simp only [Slave.synced, at', if_true]
      simp
      omega
    · simp [Slave.synced, at']
    · simpa [Slave.taken, at'] using taken
  case h_3 at' =>
    split
    · refine h.slave i s.slaveSync _ ?_ ?_ ?_ rfl
      · simp [Slave.synced, at']
      · simp [Slave.synced, at']
      · simpa [Slave.taken, at'] using taken
    · exact h

theorem Paced.initiatorStep (h : s.Paced) (ok : Bool) : (s.initiatorStep ok).Paced := by
  have scheduled := h.scheduled
  have masterScheduled := h.masterScheduled
  rw [Rcvry.initiatorStep]
  split
  case h_1 => exact h
  case h_2 at' =>
    rw [at'] at scheduled masterScheduled
    split
    · exact { h with scheduled := scheduled, masterScheduled := masterScheduled }
    · exact h
  case h_3 at' =>
    rw [at'] at scheduled masterScheduled
    change s.masterScheduled + 1 ≤ s.round at masterScheduled
    have later : ∀ i : Fin n, (s.slaves i).scheduled + (Initiator.schedule 1).owes (i + 1) ≤
        s.round := by
      intro i
      have before := scheduled i
      rw [Initiator.owes, if_pos (Nat.zero_le _)] at before
      rw [Initiator.owes, if_pos (Nat.le_add_left ..)]
      exact before
    split
    · exact { h with
        scheduled := later
        masterTaken := h.masterTaken.trans (Nat.le_succ _)
        masterScheduled := masterScheduled }
    · exact { h with scheduled := later, masterScheduled := Nat.le_of_succ_le masterScheduled }
  case h_4 v at' =>
    rw [at'] at scheduled masterScheduled
    have master : s.masterScheduled ≤ s.round := Nat.le_of_add_right_le masterScheduled
    have later : ∀ i : Fin n, i.val ≠ v →
        (s.slaves i).scheduled + (Initiator.schedule (v + 2)).owes (i + 1) ≤ s.round := by
      intro i ne
      have before := scheduled i
      simp only [Initiator.owes] at before ⊢
      split
      · rw [if_pos (by omega)] at before
        exact before
      · exact Nat.le_of_add_right_le before
    split
    case isTrue lt =>
      have here := scheduled ⟨v, lt⟩
      rw [Initiator.owes, if_pos (Nat.le_refl _)] at here
      split
      · constructor
        case tokens =>
          have same : ∀ j, (Function.update s.slaves ⟨v, lt⟩
              { s.slaves ⟨v, lt⟩ with scheduled := (s.slaves ⟨v, lt⟩).scheduled + 1 } j).synced =
              (s.slaves j).synced := by
            intro j
            by_cases eq : j = ⟨v, lt⟩
            · subst eq
              rw [Function.update_self]
              rfl
            · rw [Function.update_of_ne eq]
          simp only [same]
          exact h.tokens
        case below => exact h.below
        case met =>
          intro j
          by_cases eq : j = ⟨v, lt⟩
          · subst eq
            simp only [Function.update_self]
            exact h.met ⟨v, lt⟩
          · simp only [Function.update_of_ne eq]
            exact h.met j
        case taken =>
          intro j
          by_cases eq : j = ⟨v, lt⟩
          · subst eq
            simp only [Function.update_self]
            exact (h.taken ⟨v, lt⟩).trans (Nat.le_succ _)
          · simp only [Function.update_of_ne eq]
            exact h.taken j
        case scheduled =>
          intro j
          by_cases eq : j = ⟨v, lt⟩
          · subst eq
            simp only [Function.update_self, Initiator.owes]
            rw [if_neg (by omega)]
            exact here
          · simp only [Function.update_of_ne eq]
            exact later j fun same => eq (Fin.ext same)
        case masterTaken => exact h.masterTaken
        case masterScheduled => exact master
        case rounds => exact h.rounds
      · refine { h with scheduled := ?_, masterScheduled := master }
        intro j
        by_cases eq : j = ⟨v, lt⟩
        · subst eq
          simp only [Initiator.owes]
          rw [if_neg (by omega)]
          exact Nat.le_of_succ_le here
        · exact later j fun same => eq (Fin.ext same)
    case isFalse =>
      refine { h with scheduled := ?_, masterScheduled := master }
      intro j
      exact Nat.le_of_add_right_le (scheduled j)

/-- The master is through with a task. -/
theorem Paced.done (h : s.Paced) {t : Rcvry n} (synced : s.master.synced = 1)
    (acquired : s.master.acquired n = 0) (slaves : t.slaves = s.slaves)
    (slaveSync : t.slaveSync = s.slaveSync) (master : t.master = .idle)
    (masterDone : t.masterDone = s.masterDone + 1)
    (masterScheduled : t.masterScheduled = s.masterScheduled)
    (initiator : t.initiator = s.initiator) (round : t.round = s.round)
    (rounds : s.round ≤ s.masterDone + 1 + t.inRound.toNat) : t.Paced where
  tokens := by
    have tokens := h.tokens
    rw [syncs, synced, acquired] at tokens
    rw [syncs, slaves, slaveSync, master, masterDone]
    exact tokens
  below := by
    rw [master]
    exact nofun
  met := by
    have met := h.met
    rw [syncs, synced] at met
    rw [syncs, slaves, master, masterDone]
    exact met
  taken := by
    rw [slaves]
    exact h.taken
  scheduled := by
    rw [slaves, initiator, round]
    exact h.scheduled
  masterTaken := by
    have taken := h.masterTaken
    have busy : s.master.busy = 1 := by
      cases at' : s.master <;> rw [at'] at synced <;> first | rfl | cases synced
    rw [busy] at taken
    rw [master, masterDone, masterScheduled]
    exact taken
  masterScheduled := by
    rw [masterScheduled, initiator, round]
    exact h.masterScheduled
  rounds := by
    rw [finished, master, masterDone, round]
    exact rounds

theorem Paced.sync (h : s.Paced) {k : Nat} (at' : s.master = .sync k) (pos : 0 < s.slaveSync) :
    { s with
      slaveSync := s.slaveSync - 1
      master := if k = n then .syncBack else .sync (k + 1) }.Paced := by
  have tokens := h.tokens
  have met := h.met
  have masterTaken := h.masterTaken
  have rounds := h.rounds
  have below := h.below k at'
  rw [syncs, at'] at tokens met
  rw [at'] at masterTaken
  rw [finished, at'] at rounds
  simp only [Master.synced, Master.acquired] at tokens
  split
  case isTrue last =>
    exact { h with
      tokens := by simp only [syncs, Master.synced, Master.acquired]; omega
      below := nofun
      met := met
      masterTaken := masterTaken
      rounds := rounds }
  case isFalse more =>
    exact { h with
      tokens := by simp only [syncs, Master.synced, Master.acquired]; omega
      below := by
        rintro j ⟨rfl⟩
        omega
      met := met
      masterTaken := masterTaken
      rounds := rounds }

/-- The master has met the slaves. -/
theorem Paced.syncBack (h : s.Paced) (at' : s.master = .syncBack) :
    { s with slaveSync := s.slaveSync + 1, master := .begin }.Paced := by
  have tokens := h.tokens
  have masterTaken := h.masterTaken
  have rounds := h.rounds
  rw [syncs, at'] at tokens
  rw [at'] at masterTaken
  rw [finished, at'] at rounds
  simp only [Master.synced, Master.acquired, Nat.add_zero] at tokens
  exact { h with
    tokens := by
      simp only [syncs, Master.synced, Master.acquired, Nat.mul_succ]
      omega
    below := nofun
    met := fun i => Nat.le_of_eq (h.all_synced at' i).symm
    masterTaken := masterTaken
    rounds := rounds }

theorem Paced.workStep (h : s.Paced) {stage : Stage} {type : RcvryType}
    (at' : s.master = .work stage type) (ok : Bool) : (s.workStep type ok stage).Paced := by
  -- Whatever the step comes to, the master stays between its waiting and its end.
  have move : ∀ m : Master, m.acquired n = 0 → m.busy = 1 → m.synced = 1 → m.finished = 0 →
      (∀ k, m ≠ .sync k) → { s with master := m }.Paced := by
    intro m acquired busy synced ended ne
    exact h.move rfl rfl rfl rfl (by rw [at']; exact acquired) (by rw [at']; exact busy)
      (by rw [at']; exact synced) (by rw [at']; exact ended) (fun k eq => absurd eq (ne k)) rfl rfl
      id
  cases stage with
  | isolation => exact move _ rfl rfl rfl rfl nofun
  | fwDump | restoration | configuration =>
    simp only [Rcvry.workStep]
    split
    · exact move _ rfl rfl rfl rfl nofun
    · exact move _ rfl rfl rfl rfl nofun
  | finalization =>
    simp only [Rcvry.workStep]
    split
    · exact { move (.release type true 0) rfl rfl rfl rfl nofun with }
    · exact h

theorem Paced.masterStep (h : s.Paced) (ok : Bool) (a : Alloc) : (s.masterStep ok a).Paced := by
  rw [Rcvry.masterStep]
  split
  case h_1 at' =>
    have tokens := h.tokens
    have met := h.met
    have rounds := h.rounds
    rw [syncs, at'] at tokens met
    rw [finished, at'] at rounds
    split
    case isTrue more =>
      exact { h with
        tokens := tokens
        below := by
          rintro k ⟨rfl⟩
          exact Nat.zero_le n
        met := met
        masterTaken := more
        rounds := rounds }
    case isFalse => exact h
  case h_2 k at' =>
    split
    case isTrue pos => exact h.sync at' pos
    case isFalse => exact h
  case h_3 at' => exact h.syncBack at'
  case h_4 at' =>
    split
    · exact h.move rfl rfl rfl rfl (by rw [at']; rfl) (by rw [at']; rfl) (by rw [at']; rfl)
        (by rw [at']; rfl) nofun rfl rfl id
    · exact h
  case h_5 stage type at' => exact h.workStep at' ok
  case h_6 type res k at' =>
    split
    · exact h.move rfl rfl rfl rfl (by rw [at']; rfl) (by rw [at']; rfl) (by rw [at']; rfl)
        (by rw [at']; rfl) nofun rfl rfl id
    · exact h.move rfl rfl rfl rfl (by rw [at']; rfl) (by rw [at']; rfl) (by rw [at']; rfl)
        (by rw [at']; rfl) nofun rfl rfl id
  case h_7 type res at' =>
    have round := (h.inRound (by rw [at']; rfl) (by rw [at']; rfl)).2
    split
    · split
      · exact h.done (by rw [at']; rfl) (by rw [at']; rfl) rfl rfl rfl rfl rfl rfl rfl
          (Nat.le_of_eq round)
      · have tokens := h.tokens
        have met := h.met
        have masterTaken := h.masterTaken
        rw [syncs, at'] at tokens met
        rw [at'] at masterTaken
        exact { h with
          tokens := tokens
          below := nofun
          met := met
          masterTaken := masterTaken
          rounds := Nat.le_of_eq round }
    · exact h
  case h_8 type at' =>
    split
    case isTrue idle =>
      have after := h.initiate a idle
      have same : (s.initiate a).master = .onError type := (initiate_round s a).1.master.trans at'
      exact after.move rfl rfl rfl rfl (by rw [same]; rfl) (by rw [same]; rfl) (by rw [same]; rfl)
        (by rw [same]; rfl) nofun rfl rfl id
    case isFalse => exact h
  case h_9 type at' =>
    split
    · have rounds := h.rounds
      rw [finished, at'] at rounds
      exact h.done (by rw [at']; rfl) (by rw [at']; rfl) rfl rfl rfl rfl rfl rfl rfl rounds
    · exact h

theorem Paced.step (h : s.Paced) (e : Event n) : (s.step e).Paced := by
  cases e with
  | initiate a =>
    rw [Rcvry.step]
    split
    case isTrue idle => exact h.initiate a idle
    case isFalse => exact h
  | initiator ok => exact h.initiatorStep ok
  | master ok a => exact h.masterStep ok a
  | slave i => exact h.slaveStep i
  | failTimer | setCfg | setForcedType =>
    rw [Rcvry.step]
    split
    · exact { h with }
    · exact h

end Rcvry

end Wave300.Recovery
