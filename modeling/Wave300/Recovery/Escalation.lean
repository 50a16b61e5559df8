import Mathlib.Data.List.Infix
import Wave300.Recovery.Bookkeeping
import Wave300.Recovery.Rendezvous

/-!
# The order of the types of recovery

A firmware that keeps crashing is recovered fast, then fully, each as often as the configuration
says, and then no more. The order and the end do not depend on what goes wrong; that the end is
reached does: a round for which there is no memory for its table is never run and never over.
-/

namespace Wave300.Recovery

open Wave300.Lib

/-- The types that are tried one after another. -/
def RcvryCfg.plan (cfg : RcvryCfg) : List RcvryType :=
  List.replicate cfg.fastRcvryNum.toNat RcvryType.fast ++
    List.replicate cfg.fullRcvryNum.toNat RcvryType.full ++
    [if cfg.completeRcvry ≠ 0 then RcvryType.complete else .none]

namespace RcvryCfg

variable (cfg : RcvryCfg)

/-- How many rounds the plan has. -/
def rounds : Nat := cfg.fastRcvryNum.toNat + cfg.fullRcvryNum.toNat

@[simp] theorem length_plan : cfg.plan.length = cfg.rounds + 1 := by
  simp only [plan, rounds, List.length_append, List.length_replicate, List.length_singleton]

variable {cfg} {k : Nat}

theorem plan_fast (lt : k < cfg.fastRcvryNum.toNat) : cfg.plan[k]? = some .fast := by
  rw [plan, List.append_assoc, List.getElem?_append_left (by simpa using lt),
    List.getElem?_replicate, if_pos lt]

theorem plan_full (ge : cfg.fastRcvryNum.toNat ≤ k) (lt : k < cfg.rounds) :
    cfg.plan[k]? = some .full := by
  rw [rounds] at lt
  rw [plan, List.getElem?_append_left (by simpa using lt),
    List.getElem?_append_right (by simpa using ge), List.length_replicate,
    List.getElem?_replicate, if_pos (by omega)]

theorem plan_last : cfg.plan[cfg.rounds]? =
    some (if cfg.completeRcvry ≠ 0 then .complete else .none) := by
  rw [plan, List.getElem?_append_right (by simp [rounds])]
  simp [rounds]

theorem plan_round {type : RcvryType} (next : cfg.plan[k]? = some type) (lt : k < cfg.rounds) :
    type = .fast ∨ type = .full := by
  by_cases fast : k < cfg.fastRcvryNum.toNat
  · rw [plan_fast fast, Option.some.injEq] at next
    exact .inl next.symm
  · rw [plan_full (Nat.not_lt.1 fast) lt, Option.some.injEq] at next
    exact .inr next.symm

/-- Only the last type of the plan is no round. -/
theorem plan_over {type : RcvryType} (next : cfg.plan[k]? = some type) :
    type = .none ∨ type = .complete ↔ k = cfg.rounds := by
  have bound := (List.getElem?_eq_some_iff.1 next).1
  rw [length_plan] at bound
  by_cases lt : k < cfg.rounds
  · have round := plan_round next lt
    constructor
    · rintro (rfl | rfl) <;> simp at round
    · intro last
      omega
  · have last : k = cfg.rounds := by omega
    rw [last, plan_last, Option.some.injEq] at next
    subst next
    simp only [last, iff_true]
    split
    · exact .inr rfl
    · exact .inl rfl

end RcvryCfg

theorem prefix_concat {α : Type} {l p : List α} {x : α} (pre : l <+: p)
    (next : p[l.length]? = some x) : l ++ [x] <+: p := by
  obtain ⟨rest, rfl⟩ := pre
  rw [List.getElem?_append_right (Nat.le_refl _), Nat.sub_self] at next
  cases rest with
  | nil => cases next
  | cons y rest =>
    cases next
    exact ⟨rest, by simp⟩

namespace Rcvry

variable {n : Nat}

/-- The configuration stays, the counters are not reset, and no type is forced. -/
def Steady (_ : Rcvry n) : Event n → Prop
  | .failTimer | .setCfg _ | .setForcedType _ => False
  | _ => True

/-- Besides, there is memory, and the slaves are released in order. -/
def Persistent (s : Rcvry n) : Event n → Prop
  | .failTimer | .setCfg _ | .setForcedType _ => False
  | .initiate a | .master _ a => a = .ok
  | e => s.InOrder e

instance (s : Rcvry n) : ∀ e, Decidable (s.Persistent e)
  | .failTimer | .setCfg _ | .setForcedType _ => .isFalse id
  | .initiate _ | .master .. => inferInstanceAs (Decidable (_ = _))
  | .initiator ok => inferInstanceAs (Decidable (s.InOrder (.initiator ok)))
  | .slave i => inferInstanceAs (Decidable (s.InOrder (.slave i)))

/-- The recovery has been given up. -/
def isOver (s : Rcvry n) : Bool :=
  s.currentRcvryType = .none ∨ s.currentRcvryType = .complete

structure Escalating (cfg : RcvryCfg) (s : Rcvry n) : Prop where
  ap : s.isAp = true
  same : s.cfg = cfg
  forced : s.forcedRcvryType = .undef
  plan : s.types <+: cfg.plan
  fast : s.fastRcvryCnt.toNat = min s.types.length cfg.fastRcvryNum.toNat
  full : s.fullRcvryCnt.toNat =
    min (s.types.length - cfg.fastRcvryNum.toNat) cfg.fullRcvryNum.toNat
  ended : s.isOver = true ↔ s.types.length = cfg.rounds + 1

variable {s : Rcvry n} {cfg : RcvryCfg}

theorem init_escalating (n : Nat) (cfg : RcvryCfg) : (init n true cfg).Escalating cfg where
  ap := rfl
  same := rfl
  forced := rfl
  plan := List.nil_prefix
  fast := by simp [init]
  full := by simp [init]
  ended := by simp [init, isOver]

theorem toNat_succ {a b : UInt8} (lt : a < b) : (a + 1).toNat = a.toNat + 1 := by
  have lt := UInt8.lt_iff_toNat_lt.1 lt
  have bound := b.toNat_lt
  rw [UInt8.toNat_add]
  simp only [UInt8.toNat_one]
  omega

/-- The next type is the next one of the plan. -/
theorem Escalating.chooseType (h : s.Escalating cfg) (more : s.types.length ≤ cfg.rounds) :
    ∃ type fast full, cfg.plan[s.types.length]? = some type ∧ s.chooseType =
      { s with
        fastRcvryCnt := fast
        fullRcvryCnt := full
        currentRcvryType := type
        types := s.types ++ [type] } ∧
      fast.toNat = min (s.types.length + 1) cfg.fastRcvryNum.toNat ∧
      full.toNat = min (s.types.length + 1 - cfg.fastRcvryNum.toNat) cfg.fullRcvryNum.toNat := by
  obtain rfl := h.same
  have fast := h.fast
  have full := h.full
  rw [RcvryCfg.rounds] at more
  have ap : ¬ s.isAp = false := by rw [h.ap]; nofun
  have forced : ¬ s.forcedRcvryType ≠ .undef := not_not_intro h.forced
  rw [Rcvry.chooseType, determineType, if_neg ap, if_neg forced]
  split
  case isTrue lt =>
    have less := UInt8.lt_iff_toNat_lt.1 lt
    have succ := toNat_succ lt
    exact ⟨.fast, s.fastRcvryCnt + 1, s.fullRcvryCnt, RcvryCfg.plan_fast (by omega), rfl, by omega,
      by omega⟩
  case isFalse ge =>
    rw [UInt8.lt_iff_toNat_lt] at ge
    split
    case isTrue lt =>
      have less := UInt8.lt_iff_toNat_lt.1 lt
      have succ := toNat_succ lt
      exact ⟨.full, s.fastRcvryCnt, s.fullRcvryCnt + 1,
        RcvryCfg.plan_full (by omega) (by rw [RcvryCfg.rounds]; omega), rfl, by omega, by omega⟩
    case isFalse ge' =>
      rw [UInt8.lt_iff_toNat_lt] at ge'
      have last : s.types.length = s.cfg.rounds := by rw [RcvryCfg.rounds]; omega
      refine ⟨if s.cfg.completeRcvry ≠ 0 then .complete else .none, s.fastRcvryCnt, s.fullRcvryCnt,
        ?_, ?_, by omega, by omega⟩
      · rw [last]
        exact RcvryCfg.plan_last
      · split <;> rfl

/-- What `_rcvry_determine_type` reads and writes is left alone. -/
structure Undetermined (s t : Rcvry n) : Prop where
  isAp : t.isAp = s.isAp
  cfg : t.cfg = s.cfg
  forcedRcvryType : t.forcedRcvryType = s.forcedRcvryType
  fastRcvryCnt : t.fastRcvryCnt = s.fastRcvryCnt
  fullRcvryCnt : t.fullRcvryCnt = s.fullRcvryCnt
  types : t.types = s.types

theorem Escalating.move (h : s.Escalating cfg) {t : Rcvry n} (same : Undetermined s t)
    (ended : t.isOver = s.isOver) : t.Escalating cfg where
  ap := same.isAp.trans h.ap
  same := same.cfg.trans h.same
  forced := same.forcedRcvryType.trans h.forced
  plan := by
    rw [same.types]
    exact h.plan
  fast := by
    rw [same.fastRcvryCnt, same.types]
    exact h.fast
  full := by
    rw [same.fullRcvryCnt, same.types]
    exact h.full
  ended := by
    rw [ended, same.types]
    exact h.ended

theorem giveUp_undetermined (s : Rcvry n) :
    Undetermined s s.giveUp ∧ s.giveUp.currentRcvryType = s.currentRcvryType := by
  obtain ⟨tasks, eq⟩ := giveUp_eq s
  rw [eq]
  exact ⟨⟨rfl, rfl, rfl, rfl, rfl, rfl⟩, rfl⟩

theorem newRound_undetermined (s : Rcvry n) (a : Alloc) :
    Undetermined s (s.newRound a) ∧ (s.newRound a).currentRcvryType = s.currentRcvryType := by
  rcases newRound_cases s a with ⟨-, eq⟩ | ⟨-, -, eq⟩ | ⟨-, -, eq⟩ | ⟨-, -, eq⟩
  all_goals
    rw [eq]
    exact ⟨⟨rfl, rfl, rfl, rfl, rfl, rfl⟩, rfl⟩

/-- While the recovery is not over there is a type left. -/
theorem Escalating.length_le (h : s.Escalating cfg) (going : s.isOver = false) :
    s.types.length ≤ cfg.rounds := by
  have le := h.plan.length_le
  have ne : s.types.length ≠ cfg.rounds + 1 := by
    intro last
    rw [h.ended.2 last] at going
    cases going
  rw [RcvryCfg.length_plan] at le
  omega

theorem not_isOver (free : s.currentRcvryType = .undef) : s.isOver = false := by
  rw [isOver, free]
  rfl

/-- The next type of the plan is tried. -/
theorem Escalating.next (h : s.Escalating cfg) (free : s.currentRcvryType = .undef) (a : Alloc) :
    (s.initiate a).Escalating cfg ∧
      ∃ type, cfg.plan[s.types.length]? = some type ∧ (s.initiate a).types = s.types ++ [type] ∧
        (s.initiate a).currentRcvryType = type := by
  have h' : { s with failTimer := false }.Escalating cfg :=
    h.move ⟨rfl, rfl, rfl, rfl, rfl, rfl⟩ rfl
  obtain ⟨type, fast, full, next, eq, fastEq, fullEq⟩ :=
    h'.chooseType (h.length_le (not_isOver free))
  have chosen : { s with failTimer := false }.chooseType.Escalating cfg := by
    rw [eq]
    constructor
    case ap => exact h.ap
    case same => exact h.same
    case forced => exact h.forced
    case plan => exact prefix_concat h.plan next
    case fast =>
      rw [List.length_append]
      exact fastEq
    case full =>
      rw [List.length_append]
      exact fullEq
    case ended =>
      rw [isOver, decide_eq_true_eq, List.length_append, List.length_singleton, Nat.add_left_inj]
      exact RcvryCfg.plan_over next
  rcases initiate_cases s a with ⟨set, -⟩ | ⟨-, t, rfl, ⟨-, done⟩ | ⟨-, done⟩⟩
  · exact absurd free set
  · obtain ⟨same, current⟩ := giveUp_undetermined { s with failTimer := false }.chooseType
    rw [done]
    refine ⟨chosen.move same (by rw [isOver, isOver, current]), type, next, ?_, ?_⟩
    · rw [same.types, eq]
    · rw [current, eq]
  · obtain ⟨same, current⟩ := newRound_undetermined { s with failTimer := false }.chooseType a
    rw [done]
    refine ⟨chosen.move same (by rw [isOver, isOver, current]), type, next, ?_, ?_⟩
    · rw [same.types, eq]
    · rw [current, eq]

theorem initiate_of_busy (busy : s.currentRcvryType ≠ .undef) (a : Alloc) :
    s.initiate a = { s with failTimer := false } := if_pos busy

theorem Escalating.initiate (h : s.Escalating cfg) (a : Alloc) :
    (s.initiate a).Escalating cfg := by
  by_cases free : s.currentRcvryType = .undef
  · exact (h.next free a).1
  · rw [initiate_of_busy free]
    exact h.move ⟨rfl, rfl, rfl, rfl, rfl, rfl⟩ rfl

theorem Escalating.initiatorStep (h : s.Escalating cfg) (ok : Bool) :
    (s.initiatorStep ok).Escalating cfg := by
  rw [Rcvry.initiatorStep]
  split
  · exact h
  · split
    · exact h.move ⟨rfl, rfl, rfl, rfl, rfl, rfl⟩ rfl
    · exact h
  · split
    · exact h.move ⟨rfl, rfl, rfl, rfl, rfl, rfl⟩ rfl
    · exact h.move ⟨rfl, rfl, rfl, rfl, rfl, rfl⟩ rfl
  · split
    · split
      · exact h.move ⟨rfl, rfl, rfl, rfl, rfl, rfl⟩ rfl
      · exact h.move ⟨rfl, rfl, rfl, rfl, rfl, rfl⟩ rfl
    · exact h.move ⟨rfl, rfl, rfl, rfl, rfl, rfl⟩ rfl

theorem Escalating.slaveStep (h : s.Escalating cfg) (i : Fin n) :
    (s.slaveStep i).Escalating cfg := by
  rw [Rcvry.slaveStep]
  split
  · split
    · exact h.move ⟨rfl, rfl, rfl, rfl, rfl, rfl⟩ rfl
    · exact h
  · exact h.move ⟨rfl, rfl, rfl, rfl, rfl, rfl⟩ rfl
  · split
    · exact h.move ⟨rfl, rfl, rfl, rfl, rfl, rfl⟩ rfl
    · exact h

theorem Escalating.workStep (h : s.Escalating cfg) (type : RcvryType) (ok : Bool) (stage : Stage) :
    (s.workStep type ok stage).Escalating cfg := by
  cases stage with
  | isolation | fwDump | restoration | configuration =>
    exact h.move ⟨rfl, rfl, rfl, rfl, rfl, rfl⟩ rfl
  | finalization =>
    rw [Rcvry.workStep]
    split
    · exact h.move ⟨rfl, rfl, rfl, rfl, rfl, rfl⟩ rfl
    · exact h

theorem isOver_of_inRound (current : s.inRound = true) : s.isOver = false := by
  rw [inRound, decide_eq_true_eq] at current
  rw [isOver]
  rcases current with eq | eq <;> rw [eq] <;> rfl

theorem Escalating.masterStep (h : s.Escalating cfg) (paced : s.Paced) (ok : Bool) (a : Alloc) :
    (s.masterStep ok a).Escalating cfg := by
  rw [Rcvry.masterStep]
  split
  case h_1 =>
    split
    · exact h.move ⟨rfl, rfl, rfl, rfl, rfl, rfl⟩ rfl
    · exact h
  case h_2 =>
    split
    · exact h.move ⟨rfl, rfl, rfl, rfl, rfl, rfl⟩ rfl
    · exact h
  case h_3 => exact h.move ⟨rfl, rfl, rfl, rfl, rfl, rfl⟩ rfl
  case h_4 =>
    split
    · exact h.move ⟨rfl, rfl, rfl, rfl, rfl, rfl⟩ rfl
    · exact h
  case h_5 => exact h.workStep ..
  case h_6 => exact h.move ⟨rfl, rfl, rfl, rfl, rfl, rfl⟩ rfl
  case h_7 at' =>
    -- The round that ends was in progress.
    have going := isOver_of_inRound (paced.inRound (by rw [at']; rfl) (by rw [at']; rfl)).1
    split
    · split
      · exact h.move ⟨rfl, rfl, rfl, rfl, rfl, rfl⟩ going.symm
      · exact h.move ⟨rfl, rfl, rfl, rfl, rfl, rfl⟩ going.symm
    · exact h
  case h_8 =>
    split
    · exact (h.initiate a).move ⟨rfl, rfl, rfl, rfl, rfl, rfl⟩ rfl
    · exact h
  case h_9 =>
    split
    · exact h.move ⟨rfl, rfl, rfl, rfl, rfl, rfl⟩ rfl
    · exact h

theorem Escalating.step (h : s.Escalating cfg) (paced : s.Paced) {e : Event n}
    (steady : s.Steady e) : (s.step e).Escalating cfg := by
  cases e with
  | initiate a =>
    rw [Rcvry.step]
    split
    · exact h.initiate a
    · exact h
  | initiator ok => exact h.initiatorStep ok
  | master ok a => exact h.masterStep paced ok a
  | slave i => exact h.slaveStep i
  | failTimer | setCfg | setForcedType => exact steady.elim

/-! ## The end -/

/-- No round is in progress when the recovery has been given up. -/
theorem Tables.idle_of_over (h : s.Tables) (paced : s.Paced) (ended : s.isOver = true) :
    s.initiator = .none ∧ s.master.busy = s.master.finished ∧
      (s.master = .idle → s.masterDone = s.masterScheduled) := by
  have none : s.inRound = false := by
    cases current : s.inRound with
    | false => rfl
    | true =>
      rw [isOver_of_inRound current] at ended
      cases ended
  have rounds := paced.rounds
  have taken := paced.masterTaken
  have scheduled := paced.masterScheduled
  rw [none, finished] at rounds
  have idle : s.initiator = .none := by
    by_contra some
    have lt := h.pending some
    rw [finished] at lt
    simp only [Bool.toNat_false] at rounds
    omega
  rw [idle] at scheduled
  simp only [Bool.toNat_false, Initiator.owes] at rounds scheduled
  refine ⟨idle, ?_, ?_⟩
  · cases at' : s.master <;> rw [at'] at rounds taken <;>
      simp only [Master.busy, Master.finished] at rounds taken ⊢ <;> omega
  · intro at'
    rw [at'] at rounds taken
    simp only [Master.busy, Master.finished] at rounds taken
    omega

/-- The tasks that were scheduled, and the type of the recovery. -/
def outcome (s : Rcvry n) : List (Task n) × List RcvryType × RcvryType :=
  (s.tasks, s.types, s.currentRcvryType)

/-- When the recovery has been given up, nothing more is scheduled. -/
theorem Tables.step_of_over (h : s.Tables) (paced : s.Paced) (ended : s.isOver = true)
    (e : Event n) : (s.step e).outcome = s.outcome := by
  obtain ⟨idle, finished, done⟩ := h.idle_of_over paced ended
  have busy : s.currentRcvryType ≠ .undef := by
    intro free
    rw [not_isOver free] at ended
    cases ended
  cases e with
  | initiate a =>
    rw [Rcvry.step, if_pos idle, initiate_of_busy busy]
    rfl
  | initiator ok => rw [Rcvry.step, Rcvry.initiatorStep, idle]
  | master ok a =>
    rw [Rcvry.step, Rcvry.masterStep]
    cases at' : s.master with
    | idle => simp only [done at', Nat.lt_irrefl, if_false]
    | onError type =>
      simp only [if_pos idle, initiate_of_busy busy]
      rfl
    | returning type =>
      simp only [if_pos idle]
      rfl
    | sync | syncBack | begin | work | release | finish =>
      rw [at'] at finished
      cases finished
  | slave i =>
    rw [Rcvry.step, Rcvry.slaveStep]
    split
    · split <;> rfl
    · rfl
    · split <;> rfl
  | failTimer | setCfg | setForcedType =>
    rw [Rcvry.step]
    split <;> rfl

theorem isOver_of_outcome {t : Rcvry n} (same : t.outcome = s.outcome) : t.isOver = s.isOver := by
  have current : t.currentRcvryType = s.currentRcvryType := congrArg (·.2.2) same
  rw [isOver, isOver, current]

/-- Nor by any number of steps. -/
theorem Tables.run_of_over {t : Rcvry n} (h : s.Tables) (paced : s.Paced) (ended : s.isOver = true)
    (run : Runs Rcvry.step (fun _ _ => True) s t) : t.outcome = s.outcome := by
  have all : t.Tables ∧ t.Paced ∧ t.outcome = s.outcome := by
    apply run.invariant
    · exact ⟨h, paced, rfl⟩
    · rintro t e ⟨tables, paced, same⟩ -
      have still := (isOver_of_outcome same).trans ended
      exact ⟨tables.step paced e, paced.step e, (tables.step_of_over paced still e).trans same⟩
  exact all.2.2

end Rcvry

end Wave300.Recovery
