import Wave300.Recovery.Escalation

/-!
# The end is reached

The work that is left until the recovery is given up: the types of the plan that were not tried, and
the steps of the tasks that were scheduled. No step adds to it, and until the end some step takes
from it, whatever mixture of crashes and of rounds that fail or succeed there is.
-/

namespace Wave300.Recovery

open Wave300.Lib

def Stage.rank : Stage → Nat
  | .isolation => 0
  | .fwDump => 1
  | .restoration => 2
  | .configuration => 3
  | .finalization => 4

namespace Master

/-- How many steps of `master_recovery` are behind. -/
def progress (n : Nat) : Master → Nat
  | .idle => 0
  | .sync k => k + 1
  | .syncBack => n + 2
  | .begin => n + 3
  | .work stage _ => n + 4 + stage.rank
  | .release _ _ k => n + 9 + k
  | .finish .. => 2 * n + 10
  | .onError _ => 2 * n + 11
  | .returning _ => 2 * n + 12

/-- The steps of a whole task. -/
def steps (n : Nat) : Nat := 2 * n + 13

end Master

/-- The steps that are left until all tasks are scheduled, each with the steps of the task. -/
def Initiator.left (n : Nat) : Initiator → Nat
  | .none => 0
  | .acquire => (n + 3) * (Master.steps n + 4) + 1
  | .schedule v => (n + 2 - v) * (Master.steps n + 4) + 1

def Phase.rank : Phase → Nat
  | .idle => 0
  | .started => 1
  | .synced => 2

/-- The steps that are left to a slave. -/
def Slave.left (x : Slave) : Nat := 3 * (x.scheduled - x.passed) - x.phase.rank

namespace Rcvry

variable {n : Nat}

/-- The steps that are left to the tasks that were scheduled. -/
def tasksLeft (s : Rcvry n) : Nat :=
  s.initiator.left n +
    (Master.steps n * (s.masterScheduled - s.masterDone) - s.master.progress n) +
    ∑ i, (s.slaves i).left

/-- The work that is left until the recovery is given up. -/
def work (cfg : RcvryCfg) (s : Rcvry n) : Nat :=
  (cfg.rounds + 1 - s.types.length) * (Initiator.left n .acquire + 1) + s.tasksLeft

variable {s : Rcvry n} {cfg : RcvryCfg}

theorem work_lt_of_tasksLeft {t : Rcvry n} (types : t.types = s.types)
    (less : t.tasksLeft < s.tasksLeft) : t.work cfg < s.work cfg := by
  rw [work, work, types]
  exact Nat.add_lt_add_left less _

/-- The bounds that keep the differences in `tasksLeft` from being cut off. -/
theorem Released.progress_lt (h : s.Released) (paced : s.Paced) :
    s.master.progress n < Master.steps n := by
  have below := paced.below
  have below' := h.below
  rw [Master.steps]
  cases at' : s.master with
  | sync k =>
    have le := below k at'
    rw [Master.progress]
    omega
  | work stage => cases stage <;> simp only [Master.progress, Stage.rank] <;> omega
  | release type res k =>
    have le := below' type res k at'
    rw [Master.progress]
    omega
  | idle | syncBack | begin | finish | onError | returning =>
    rw [Master.progress]
    omega

/-- The master takes a step within its task. -/
theorem tasksLeft_master {m : Master} {sync rlse : Nat}
    (more : m.progress n ≤ Master.steps n * (s.masterScheduled - s.masterDone))
    (less : s.master.progress n < m.progress n) :
    { s with master := m, slaveSync := sync, slaveRlse := rlse }.tasksLeft < s.tasksLeft := by
  simp only [tasksLeft]
  omega

theorem sum_left_update (slaves : Fin n → Slave) (i : Fin n) (x : Slave) :
    ∑ j, (Function.update slaves i x j).left + (slaves i).left = ∑ j, (slaves j).left + x.left := by
  apply sum_add_eq_sum_add i
  · rw [Function.update_self]
    exact Nat.add_comm _ _
  · intro j ne
    rw [Function.update_of_ne ne]

/-- A slave takes a step within its tasks. -/
theorem tasksLeft_slave (i : Fin n) {x : Slave} {sync rlse : Nat}
    (less : x.left < (s.slaves i).left) :
    { s with
      slaves := Function.update s.slaves i x
      slaveSync := sync
      slaveRlse := rlse }.tasksLeft < s.tasksLeft := by
  have change := sum_left_update s.slaves i x
  simp only [tasksLeft]
  omega

theorem slaveStep_work (paced : s.Paced) (i : Fin n) :
    s.slaveStep i = s ∨ (s.slaveStep i).work cfg < s.work cfg := by
  have taken := paced.taken i
  rw [Slave.taken] at taken
  rw [Rcvry.slaveStep]
  split
  case h_1 at' =>
    split
    case isTrue more =>
      refine .inr (work_lt_of_tasksLeft rfl (tasksLeft_slave i ?_))
      simp only [Slave.left, Phase.rank, at']
      omega
    case isFalse => exact .inl rfl
  case h_2 at' =>
    rw [at', if_neg (by rintro ⟨⟩)] at taken
    refine .inr (work_lt_of_tasksLeft rfl (tasksLeft_slave i ?_))
    simp only [Slave.left, Phase.rank, at']
    omega
  case h_3 at' =>
    rw [at', if_neg (by rintro ⟨⟩)] at taken
    split
    case isTrue =>
      refine .inr (work_lt_of_tasksLeft rfl (tasksLeft_slave i ?_))
      simp only [Slave.left, Phase.rank, at']
      omega
    case isFalse => exact .inl rfl

theorem left_schedule {v w : Nat} (more : v ≤ n) (next : w = v + 1) :
    Initiator.left n (.schedule v) = Initiator.left n (.schedule w) + (Master.steps n + 4) := by
  have here : n + 2 - v = n + 2 - w + 1 := by omega
  simp only [Initiator.left]
  rw [here, Nat.succ_mul]
  omega

theorem left_acquire : Initiator.left n .acquire =
    Initiator.left n (.schedule 0) + (Master.steps n + 4) := by
  simp only [Initiator.left]
  rw [Nat.sub_zero, Nat.succ_mul]
  omega

theorem initiatorStep_work (ok : Bool) :
    s.initiatorStep ok = s ∨ (s.initiatorStep ok).work cfg < s.work cfg := by
  rw [Rcvry.initiatorStep]
  split
  case h_1 => exact .inl rfl
  case h_2 at' =>
    split
    case isTrue =>
      refine .inr (work_lt_of_tasksLeft rfl ?_)
      simp only [tasksLeft, at', left_acquire]
      omega
    case isFalse => exact .inl rfl
  case h_3 at' =>
    have step := left_schedule (Nat.zero_le n) (Nat.zero_add 1).symm
    split
    · have more : Master.steps n * (s.masterScheduled + 1 - s.masterDone) ≤
          Master.steps n * (s.masterScheduled - s.masterDone) + Master.steps n := by
        rw [← Nat.mul_succ]
        exact Nat.mul_le_mul_left _ (by omega)
      refine .inr (work_lt_of_tasksLeft rfl ?_)
      simp only [tasksLeft, at', step]
      omega
    · refine .inr (work_lt_of_tasksLeft rfl ?_)
      simp only [tasksLeft, at', step]
      omega
  case h_4 v at' =>
    split
    case isTrue lt =>
      have step := left_schedule (w := v + 2) lt rfl
      split
      · -- The task of a slave has three steps.
        have change := sum_left_update s.slaves ⟨v, lt⟩
          { s.slaves ⟨v, lt⟩ with scheduled := (s.slaves ⟨v, lt⟩).scheduled + 1 }
        have more : { s.slaves ⟨v, lt⟩ with scheduled := (s.slaves ⟨v, lt⟩).scheduled + 1 }.left ≤
            (s.slaves ⟨v, lt⟩).left + 3 := by
          simp only [Slave.left]
          omega
        refine .inr (work_lt_of_tasksLeft rfl ?_)
        simp only [tasksLeft, at', step] at change more ⊢
        omega
      · refine .inr (work_lt_of_tasksLeft rfl ?_)
        simp only [tasksLeft, at', step]
        omega
    case isFalse =>
      refine .inr (work_lt_of_tasksLeft rfl ?_)
      simp only [tasksLeft, at', Initiator.left]
      omega

/-- The task that the master is in is not done. -/
theorem Paced.steps_le (h : s.Paced) (busy : s.master.busy = 1) : Master.steps n * 1 +
    Master.steps n * (s.masterScheduled - (s.masterDone + 1)) =
      Master.steps n * (s.masterScheduled - s.masterDone) := by
  have taken := h.masterTaken
  rw [busy] at taken
  rw [← Nat.mul_add]
  congr 1
  omega

/-- The next type of the plan is more work than scheduling its round. -/
theorem Escalating.next_work (h : s.Escalating cfg) (free : s.currentRcvryType = .undef)
    (idle : s.initiator = .none) (a : Alloc) : (s.initiate a).work cfg < s.work cfg := by
  obtain ⟨-, type, -, types, -⟩ := h.next free a
  obtain ⟨kept, rest⟩ := initiate_round s a
  have le := h.length_le (not_isOver free)
  have left : (s.initiate a).initiator.left n ≤ Initiator.left n .acquire := by
    rcases rest with ⟨-, same, -⟩ | ⟨-, -, same, -⟩
    · rw [same, idle]
      exact Nat.zero_le _
    · rw [same]
  have less : cfg.rounds + 1 - s.types.length = cfg.rounds + 1 - (s.types.length + 1) + 1 := by
    omega
  rw [work, work, types, List.length_append, List.length_singleton, less, Nat.succ_mul, tasksLeft,
    tasksLeft, kept.masterScheduled, kept.masterDone, kept.master, kept.slaves, idle]
  simp only [Initiator.left] at left ⊢
  omega

theorem Escalating.initiate_work (h : s.Escalating cfg) (idle : s.initiator = .none) (a : Alloc) :
    (s.initiate a).work cfg ≤ s.work cfg := by
  by_cases free : s.currentRcvryType = .undef
  · exact Nat.le_of_lt (h.next_work free idle a)
  · rw [initiate_of_busy free]
    exact Nat.le_refl _

/-- The task of the master is done. -/
theorem tasksLeft_done (paced : s.Paced) (busy : s.master.busy = 1)
    (going : s.master.progress n < Master.steps n) {t : Rcvry n}
    (initiator : t.initiator = s.initiator) (slaves : t.slaves = s.slaves)
    (scheduled : t.masterScheduled = s.masterScheduled) (done : t.masterDone = s.masterDone + 1) :
    t.tasksLeft < s.tasksLeft := by
  have all := paced.steps_le busy
  rw [tasksLeft, tasksLeft, initiator, slaves, scheduled, done]
  omega

theorem workStep_work (paced : s.Paced) {stage : Stage} {type : RcvryType}
    (at' : s.master = .work stage type) (ok : Bool) :
    s.workStep type ok stage = s ∨ (s.workStep type ok stage).work cfg < s.work cfg := by
  have all := paced.steps_le (by rw [at']; rfl)
  have move : ∀ m : Master, m.progress n ≤ Master.steps n →
      s.master.progress n < m.progress n → { s with master := m }.tasksLeft < s.tasksLeft := by
    intro m le lt
    exact tasksLeft_master (by omega) lt
  rw [at', Master.progress] at move
  rw [Master.steps] at move
  cases stage with
  | isolation =>
    refine .inr (work_lt_of_tasksLeft rfl (move _ ?_ ?_))
    · split <;> simp only [Master.progress, Stage.rank] <;> omega
    · split <;> simp only [Master.progress, Stage.rank] <;> omega
  | fwDump | restoration | configuration =>
    refine .inr (work_lt_of_tasksLeft rfl (move _ ?_ ?_))
    · split <;> simp only [Master.progress, Stage.rank] <;> omega
    · split <;> simp only [Master.progress, Stage.rank] <;> omega
  | finalization =>
    rw [Rcvry.workStep]
    split
    · refine .inr (work_lt_of_tasksLeft rfl (move (.release type true 0) ?_ ?_))
      · simp only [Master.progress]
        omega
      · simp only [Master.progress, Stage.rank]
        omega
    · exact .inl rfl

theorem Escalating.masterStep_work (h : s.Escalating cfg) (paced : s.Paced) (released : s.Released)
    (ok : Bool) (a : Alloc) :
    s.masterStep ok a = s ∨ (s.masterStep ok a).work cfg < s.work cfg := by
  have bound := released.progress_lt paced
  have move : ∀ (m : Master) (sync rlse : Nat), s.master.busy = 1 → m.progress n ≤ Master.steps n →
      s.master.progress n < m.progress n →
      { s with master := m, slaveSync := sync, slaveRlse := rlse }.tasksLeft < s.tasksLeft := by
    intro m sync rlse busy le lt
    have all := paced.steps_le busy
    exact tasksLeft_master (by omega) lt
  rw [Rcvry.masterStep]
  split
  case h_1 at' =>
    split
    case isTrue more =>
      have pos : Master.steps n * 1 ≤ Master.steps n * (s.masterScheduled - s.masterDone) :=
        Nat.mul_le_mul_left _ (by omega)
      refine .inr (work_lt_of_tasksLeft rfl (tasksLeft_master ?_ ?_))
      · rw [Master.steps] at pos ⊢
        simp only [Master.progress]
        omega
      · rw [at']
        exact Nat.zero_lt_succ _
    case isFalse => exact .inl rfl
  case h_2 k at' =>
    have below := paced.below k at'
    rw [at', Master.steps] at move
    split
    · refine .inr (work_lt_of_tasksLeft rfl (move _ _ _ rfl ?_ ?_))
      · split <;> simp only [Master.progress] <;> omega
      · split <;> simp only [Master.progress] <;> omega
    · exact .inl rfl
  case h_3 at' =>
    rw [at', Master.steps] at move
    refine .inr (work_lt_of_tasksLeft rfl (move _ _ _ rfl ?_ ?_))
    · simp only [Master.progress]
      omega
    · simp only [Master.progress]
      omega
  case h_4 at' =>
    rw [at', Master.steps] at move
    split
    · refine .inr (work_lt_of_tasksLeft rfl
        (move (.work .isolation s.currentRcvryType) s.slaveSync s.slaveRlse rfl ?_ ?_))
      · simp only [Master.progress, Stage.rank]
        omega
      · simp only [Master.progress, Stage.rank]
        omega
    · exact .inl rfl
  case h_5 at' => exact workStep_work paced at' ok
  case h_6 type res k at' =>
    have below := released.below type res k at'
    rw [at', Master.steps] at move
    refine .inr (work_lt_of_tasksLeft rfl (move _ _ _ rfl ?_ ?_))
    · split <;> simp only [Master.progress] <;> omega
    · split <;> simp only [Master.progress] <;> omega
  case h_7 type res at' =>
    split
    · split
      · exact .inr (work_lt_of_tasksLeft rfl
          (tasksLeft_done paced (by rw [at']; rfl) bound rfl rfl rfl rfl))
      · rw [at', Master.steps] at move
        refine .inr (work_lt_of_tasksLeft rfl
          (move (.onError type) s.slaveSync s.slaveRlse rfl ?_ ?_))
        · simp only [Master.progress]
          omega
        · simp only [Master.progress]
          omega
    · exact .inl rfl
  case h_8 type at' =>
    split
    case isTrue idle =>
      have same : (s.initiate a).master = .onError type := (initiate_round s a).1.master.trans at'
      have le := h.initiate_work idle a
      have all := (paced.initiate a idle).steps_le (by rw [same]; rfl)
      have less : { s.initiate a with master := .returning type }.tasksLeft <
          (s.initiate a).tasksLeft := by
        apply tasksLeft_master
        · rw [← all]
          simp only [Master.progress, Master.steps]
          omega
        · rw [same]
          exact Nat.lt_succ_self _
      exact .inr (Nat.lt_of_lt_of_le (work_lt_of_tasksLeft (s := s.initiate a) rfl less) le)
    case isFalse => exact .inl rfl
  case h_9 at' =>
    split
    · exact .inr (work_lt_of_tasksLeft rfl
        (tasksLeft_done paced (by rw [at']; rfl) bound rfl rfl rfl rfl))
    · exact .inl rfl

/-- A task that goes on takes from the work that is left. -/
theorem Escalating.task_work (h : s.Escalating cfg) (paced : s.Paced) (released : s.Released)
    {e : Event n} (task : e.isTask = true) : s.step e = s ∨ (s.step e).work cfg < s.work cfg := by
  cases e with
  | initiator ok => exact initiatorStep_work ok
  | master ok a => exact h.masterStep_work paced released ok a
  | slave i => exact slaveStep_work paced i
  | initiate | failTimer | setCfg | setForcedType => cases task

/-- No step adds to the work that is left. -/
theorem Escalating.step_work (h : s.Escalating cfg) (paced : s.Paced) (released : s.Released)
    {e : Event n} (steady : s.Steady e) : (s.step e).work cfg ≤ s.work cfg := by
  have task : e.isTask = true → (s.step e).work cfg ≤ s.work cfg := by
    intro task
    rcases h.task_work paced released task with same | less
    · rw [same]
    · exact Nat.le_of_lt less
  cases e with
  | initiate a =>
    rw [Rcvry.step]
    split
    case isTrue idle => exact h.initiate_work idle a
    case isFalse => exact Nat.le_refl _
  | initiator | master | slave => exact task rfl
  | failTimer | setCfg | setForcedType => exact steady.elim

/-! ## A step that is always there -/

theorem Persistent.steady {e : Event n} (h : s.Persistent e) : s.Steady e := by
  cases e with
  | initiate | initiator | master | slave => exact trivial
  | failTimer | setCfg | setForcedType => exact h.elim

theorem Persistent.inOrder {e : Event n} (h : s.Persistent e) : s.InOrder e := by
  cases e with
  | initiate | master => exact trivial
  | initiator | slave => exact h
  | failTimer | setCfg | setForcedType => exact h.elim

theorem Persistent.fed {e : Event n} (h : s.Persistent e) : s.Fed e := by
  cases e with
  | initiate | master => exact h
  | initiator => exact fun _ => h
  | slave => exact trivial
  | failTimer | setCfg | setForcedType => exact h.elim

/-- The allocation of a table does not keep the master from going on. -/
theorem masterStep_eq_self {ok : Bool} (a : Alloc) (same : s.masterStep ok .ok = s) :
    s.masterStep ok a = s := by
  cases at' : s.master with
  | onError type =>
    by_cases idle : s.initiator = .none
    · have moved := congrArg Rcvry.master same
      rw [Rcvry.masterStep, at'] at moved
      simp only [if_pos idle] at moved
      cases moved
    · rw [Rcvry.masterStep, at']
      exact if_neg idle
  | idle | sync | syncBack | begin | work | release | finish | returning =>
    rw [Rcvry.masterStep, at'] at same ⊢
    exact same

theorem CanProceed.persistent (h : s.CanProceed) :
    ∃ e : Event n, e.isTask = true ∧ s.Persistent e ∧ s.step e ≠ s := by
  obtain ⟨e, task, inOrder, moves⟩ := h
  cases e with
  | initiator | slave => exact ⟨_, task, inOrder, moves⟩
  | master ok a => exact ⟨.master ok .ok, rfl, rfl, fun same => moves (masterStep_eq_self a same)⟩
  | initiate | failTimer | setCfg | setForcedType => cases task

/-- All that is known along a persistent run. -/
structure Driven (cfg : RcvryCfg) (s : Rcvry n) : Prop where
  paced : s.Paced
  released : s.Released
  served : s.Served
  escalating : s.Escalating cfg

theorem init_driven (n : Nat) (cfg : RcvryCfg) : (init n true cfg).Driven cfg :=
  ⟨init_paced true cfg, init_released true cfg, nofun, init_escalating n cfg⟩

theorem Driven.step (h : s.Driven cfg) {e : Event n} (ok : s.Persistent e) :
    (s.step e).Driven cfg where
  paced := h.paced.step e
  released := h.released.step h.paced ok.inOrder
  served := h.served.step h.paced ok.fed
  escalating := h.escalating.step h.paced ok.steady

/-- At rest the firmware is up, or the recovery has been given up. -/
theorem Served.free_of_rest (h : s.Served) (rest : s.AtRest) (going : s.isOver = false) :
    s.currentRcvryType = .undef := by
  obtain ⟨idle, at', done, -⟩ := rest
  have none : ¬ s.inRound = true := by
    intro inRound
    have lt := h inRound
    rw [finished, at', idle, done] at lt
    exact Nat.lt_irrefl _ lt
  rw [inRound, decide_eq_true_eq] at none
  rw [isOver, decide_eq_false_iff_not] at going
  cases current : s.currentRcvryType <;> simp_all

/-- Until the end some step takes from the work that is left: a crash, or a step of a task. -/
theorem Driven.progress (h : s.Driven cfg) (going : s.isOver = false) :
    ∃ e, s.Persistent e ∧ (s.step e).work cfg < s.work cfg := by
  by_cases rest : s.AtRest
  · refine ⟨.initiate .ok, rfl, ?_⟩
    rw [Rcvry.step, if_pos rest.1]
    exact h.escalating.next_work (h.served.free_of_rest rest going) rest.1 .ok
  · obtain ⟨e, task, ok, moves⟩ := (h.released.proceeds h.paced rest).persistent
    exact ⟨e, ok, (h.escalating.task_work h.paced h.released task).resolve_left moves⟩

/-! ## The types are those of the rounds -/

/-- Every type but the last one is that of a round. -/
def Counted (cfg : RcvryCfg) (s : Rcvry n) : Prop := s.round = min s.types.length cfg.rounds

theorem inRound_of_over (ended : s.isOver = true) : s.inRound = false := by
  rw [isOver, decide_eq_true_eq] at ended
  rw [inRound]
  rcases ended with eq | eq <;> rw [eq] <;> rfl

/-- With memory for its table a round is initiated unless the recovery is given up. -/
theorem initiate_ok_round (free : s.currentRcvryType = .undef) :
    (s.initiate .ok).round = s.round + (s.initiate .ok).inRound.toNat := by
  obtain ⟨fast, full, forced, current, types, same⟩ := chooseType_eq { s with failTimer := false }
  rcases initiate_cases s .ok with ⟨set, -⟩ | ⟨-, t, chosen, ⟨ended, done⟩ | ⟨inRound, done⟩⟩
  · exact absurd free set
  · obtain ⟨tasks, gone⟩ := giveUp_eq t
    have none : t.giveUp.inRound = false := by
      rw [gone]
      exact inRound_of_over (s := t) (decide_eq_true ended)
    rw [done, none, gone, chosen, same]
    rfl
  · rw [done]
    rcases newRound_cases t .ok with ⟨-, new⟩ | ⟨-, -, new⟩ | ⟨-, wrong, -⟩ | ⟨-, wrong, -⟩
    · rw [new]
      change t.round + 1 = s.round + t.inRound.toNat
      rw [inRound, chosen, same]
      rfl
    · rw [new]
      change t.round + 1 = s.round + t.inRound.toNat
      rw [inRound, chosen, same]
      rfl
    · cases wrong
    · cases wrong

theorem Counted.initiate (h : s.Counted cfg) (escalating : s.Escalating cfg) :
    (s.initiate .ok).Counted cfg := by
  by_cases free : s.currentRcvryType = .undef
  case neg =>
    rw [initiate_of_busy free]
    exact h
  case pos =>
    obtain ⟨after, type, next, types, current⟩ := escalating.next free .ok
    have le := escalating.length_le (not_isOver free)
    have ended := after.ended
    rw [types, List.length_append, List.length_singleton, Nat.add_left_inj] at ended
    rw [Counted] at h ⊢
    rw [types, List.length_append, List.length_singleton, initiate_ok_round free, h]
    cases last : (s.initiate .ok).isOver with
    | true =>
      rw [inRound_of_over last, ended.1 last]
      simp
    | false =>
      have ne : s.types.length ≠ cfg.rounds := fun eq => by
        rw [ended.2 eq] at last
        cases last
      have inRound : (s.initiate .ok).inRound = true := by
        rw [inRound, current]
        exact decide_eq_true (RcvryCfg.plan_round next (by omega))
      rw [inRound, Bool.toNat_true]
      omega

theorem Counted.step (h : s.Counted cfg) (escalating : s.Escalating cfg) {e : Event n}
    (ok : s.Persistent e) : (s.step e).Counted cfg := by
  cases e with
  | initiate a =>
    rw [show a = .ok from ok, Rcvry.step]
    split
    · exact h.initiate escalating
    · exact h
  | initiator ok =>
    rw [Rcvry.step, initiatorStep]
    split
    · exact h
    · split <;> exact h
    · split <;> exact h
    · split
      · split <;> exact h
      · exact h
  | slave i =>
    rw [Rcvry.step, slaveStep]
    split
    · split <;> exact h
    · exact h
    · split <;> exact h
  | master ok' a =>
    rw [show a = .ok from ok, Rcvry.step, Rcvry.masterStep]
    split
    case h_5 stage _ _ =>
      cases stage with
      | isolation | fwDump | restoration | configuration => exact h
      | finalization =>
        rw [workStep]
        split <;> exact h
    case h_7 =>
      split
      · split <;> exact h
      · exact h
    case h_8 =>
      split
      · exact h.initiate escalating
      · exact h
    all_goals first | exact h | (split <;> exact h)
  | failTimer | setCfg | setForcedType => exact ok.elim

end Rcvry

open Rcvry

variable {n : Nat}

/-- The types that are tried are those of the plan, in its order, and when the recovery is given up
all were tried and nothing more is scheduled. When besides there is memory and the slaves are
released in order, each type but the last one has its round, no step adds to the work that is left,
and until the end some step takes from it, so that the end is reached. -/
theorem escalation {cfg : RcvryCfg} {s : Rcvry n} (run : Runs step Steady (init n true cfg) s) :
    (s.types <+: cfg.plan ∧ s.fastRcvryCnt ≤ cfg.fastRcvryNum ∧
      s.fullRcvryCnt ≤ cfg.fullRcvryNum) ∧
    (s.isOver = true → s.types = cfg.plan ∧
      ∀ t, Runs step (fun _ _ => True) s t → t.outcome = s.outcome) ∧
    (Runs step Persistent (init n true cfg) s →
      s.masterScheduled + s.initiator.owes 0 = min s.types.length cfg.rounds ∧
      (∀ e, s.Persistent e → (s.step e).work cfg ≤ s.work cfg) ∧
      (s.isOver = false → ∃ e, s.Persistent e ∧ (s.step e).work cfg < s.work cfg) ∧
      ∃ t, Runs step Persistent s t ∧ t.isOver = true) := by
  have all : s.Paced ∧ s.Tables ∧ s.Escalating cfg := by
    apply run.invariant
    · exact ⟨init_paced true cfg, init_tables true cfg, init_escalating n cfg⟩
    · rintro s e ⟨paced, tables, escalating⟩ steady
      exact ⟨paced.step e, tables.step paced e, escalating.step paced steady⟩
  obtain ⟨paced, tables, escalating⟩ := all
  refine ⟨⟨escalating.plan, ?_, ?_⟩, ?_, ?_⟩
  · rw [UInt8.le_iff_toNat_le, escalating.fast]
    exact Nat.min_le_right _ _
  · rw [UInt8.le_iff_toNat_le, escalating.full]
    exact Nat.min_le_right _ _
  · intro ended
    refine ⟨?_, fun t run => tables.run_of_over paced ended run⟩
    apply escalating.plan.eq_of_length
    rw [RcvryCfg.length_plan]
    exact escalating.ended.1 ended
  · intro run
    have driven : s.Driven cfg ∧ s.Counted cfg := by
      apply run.invariant
      · exact ⟨init_driven n cfg, (Nat.zero_min _).symm⟩
      · rintro s e ⟨driven, counted⟩ ok
        exact ⟨driven.step ok, counted.step driven.escalating ok⟩
    obtain ⟨driven, counted⟩ := driven
    refine ⟨driven.released.masterScheduled.trans counted, ?_, driven.progress, ?_⟩
    · intro e ok
      exact escalating.step_work paced driven.released ok.steady
    · apply Runs.reaches (P := Driven cfg) (work cfg) s driven
      · intro s e driven ok
        exact driven.step ok
      · intro s driven going
        exact driven.progress (Bool.eq_false_iff.2 going)

/-- One fast recovery, which fails in its restoration. -/
theorem escalation_one_fast :
    let cfg : RcvryCfg := ⟨1, 0, 0, 60000, 0⟩
    let s := ([[.initiate .ok], List.replicate 3 (.initiator true),
      List.replicate 5 (.master true .ok), [.master false .ok],
      List.replicate 3 (.master true .ok)].flatten : List (Event 0)).foldl step (init 0 true cfg)
    s.types = [.fast, .none] ∧
      ∀ t, Runs step (fun _ _ => True) s t → t.tasks = [.master, .finish] := by
  intro cfg s
  have persistent : Runs step Persistent (init 0 true cfg) s := by
    apply Runs.of_allowed
    decide +kernel
  have ended : s.isOver = true := by decide +kernel
  have tasks : s.tasks = [.master, .finish] := by decide +kernel
  have plan : cfg.plan = [.fast, .none] := by decide +kernel
  have steady : Runs step Steady (init 0 true cfg) s := persistent.mono fun _ _ ok => ok.steady
  generalize s = t at persistent ended tasks steady ⊢
  obtain ⟨types, still⟩ := (escalation steady).2.1 ended
  refine ⟨types.trans plan, fun u run => ?_⟩
  have same : u.tasks = t.tasks := congrArg (·.1) (still u run)
  exact same.trans tasks

/-- There is no memory for the table of the first round. However often the firmware crashes, no
recovery is run and the recovery is not given up. -/
theorem never_escalates :
    Runs step Steady (init 0 true defaultCfg) noMemory ∧
      ∀ t, Runs step Steady noMemory t → t.types = [.fast] ∧ t.tasks = [] ∧ t.isOver = false := by
  constructor
  · exact .step _ .start trivial
  · intro t run
    have stuck : t = noMemory := by
      apply run.invariant (P := (· = noMemory)) rfl
      rintro _ e rfl steady
      cases e with
      | initiate | initiator | master => rfl
      | slave i => exact i.elim0
      | failTimer | setCfg | setForcedType => exact steady.elim
    rw [stuck]
    decide

end Wave300.Recovery
