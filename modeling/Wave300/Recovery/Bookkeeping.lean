import Wave300.Recovery.Pace

/-!
# The table of VAPs and the type of the recovery

The table lives for a chain of rounds: from the first one, over the rounds that are initiated
because the one before has failed, until one succeeds or there is nothing left to recover with. The
type of the recovery says at the same time that one is in progress. It is set before the table is
allocated, and when there is no memory it stays set and nothing is scheduled.
-/

namespace Wave300.Recovery

open Wave300.Lib

namespace Rcvry

variable {n : Nat}

/-- A round is in progress, or the last one has failed and the next is not initiated yet. -/
def chainOpen (s : Rcvry n) : Bool := s.errorOnRcvry || decide (s.finished < s.round)

structure Tables (s : Rcvry n) : Prop where
  pending : s.initiator ≠ .none → s.finished < s.round
  errors : s.errorOnRcvry = true → s.initiator = .none → s.round ≤ s.finished
  opened : s.chainOpen = true →
    s.vapInfo = some s.chain ∧ s.chain ∈ s.allocs ∧ s.chain ∉ s.frees
  closed : ∀ c ∈ s.allocs, c ∈ s.frees ∨ c = s.chain ∧ s.chainOpen = true
  le : ∀ c ∈ s.allocs, c ≤ s.chain
  subset : ∀ c ∈ s.frees, c ∈ s.allocs
  nodupAllocs : s.allocs.Nodup
  nodupFrees : s.frees.Nodup

variable {s : Rcvry n}

theorem init_tables (isAp : Bool) (cfg : RcvryCfg) : (init n isAp cfg).Tables where
  pending := by simp [init]
  errors := nofun
  opened := by simp [init, chainOpen]
  closed := nofun
  le := nofun
  subset := nofun
  nodupAllocs := List.nodup_nil
  nodupFrees := List.nodup_nil

/-- What does not matter here changes. -/
theorem Tables.move (h : s.Tables) {t : Rcvry n} (error : t.errorOnRcvry = s.errorOnRcvry)
    (ended : t.finished = s.finished) (round : t.round = s.round)
    (initiator : t.initiator = .none → s.initiator = .none)
    (pending : t.initiator ≠ .none → s.initiator ≠ .none) (vapInfo : t.vapInfo = s.vapInfo)
    (chain : t.chain = s.chain) (allocs : t.allocs = s.allocs) (frees : t.frees = s.frees) :
    t.Tables := by
  have same : t.chainOpen = s.chainOpen := by rw [chainOpen, chainOpen, error, ended, round]
  constructor
  case pending =>
    rw [ended, round]
    exact fun some => h.pending (pending some)
  case errors =>
    rw [error, ended, round]
    exact fun set none => h.errors set (initiator none)
  case opened =>
    rw [same, vapInfo, chain, allocs, frees]
    exact h.opened
  case closed =>
    rw [same, chain, allocs, frees]
    exact h.closed
  case le =>
    rw [chain, allocs]
    exact h.le
  case subset =>
    rw [allocs, frees]
    exact h.subset
  case nodupAllocs =>
    rw [allocs]
    exact h.nodupAllocs
  case nodupFrees =>
    rw [frees]
    exact h.nodupFrees

/-- The chain goes on, and its table is kept. -/
theorem Tables.keep (h : s.Tables) (wasOpen : s.chainOpen = true) {t : Rcvry n}
    (isOpen : t.chainOpen = true) (pending : t.initiator ≠ .none → t.finished < t.round)
    (errors : t.errorOnRcvry = true → t.initiator = .none → t.round ≤ t.finished)
    (vapInfo : t.vapInfo = s.vapInfo) (chain : t.chain = s.chain) (allocs : t.allocs = s.allocs)
    (frees : t.frees = s.frees) : t.Tables where
  pending := pending
  errors := errors
  opened := by
    rw [vapInfo, chain, allocs, frees]
    exact fun _ => h.opened wasOpen
  closed := by
    have closed := h.closed
    rw [wasOpen] at closed
    rw [isOpen, chain, allocs, frees]
    exact closed
  le := by
    rw [chain, allocs]
    exact h.le
  subset := by
    rw [allocs, frees]
    exact h.subset
  nodupAllocs := by
    rw [allocs]
    exact h.nodupAllocs
  nodupFrees := by
    rw [frees]
    exact h.nodupFrees

/-- The chain ends, and its table is freed. -/
theorem Tables.free (h : s.Tables) (wasOpen : s.chainOpen = true) {t : Rcvry n}
    (error : t.errorOnRcvry = false) (ended : t.round ≤ t.finished)
    (initiator : t.initiator = .none) (chain : t.chain = s.chain) (allocs : t.allocs = s.allocs)
    (frees : t.frees = s.chain :: s.frees) : t.Tables := by
  obtain ⟨-, mem, notFreed⟩ := h.opened wasOpen
  have same : t.chainOpen = false := by
    rw [chainOpen, error, decide_eq_false (Nat.not_lt.2 ended)]
    rfl
  constructor
  case pending => exact fun some => absurd initiator some
  case errors =>
    rw [error]
    exact nofun
  case opened =>
    rw [same]
    exact nofun
  case closed =>
    rw [allocs, frees]
    intro c known
    rcases h.closed c known with freed | ⟨rfl, -⟩
    · exact .inl (List.mem_cons_of_mem _ freed)
    · exact .inl List.mem_cons_self
  case le =>
    rw [chain, allocs]
    exact h.le
  case subset =>
    rw [allocs, frees]
    intro c freed
    rcases List.mem_cons.1 freed with rfl | freed
    · exact mem
    · exact h.subset c freed
  case nodupAllocs =>
    rw [allocs]
    exact h.nodupAllocs
  case nodupFrees =>
    rw [frees]
    exact List.nodup_cons.2 ⟨notFreed, h.nodupFrees⟩

theorem Tables.giveUp (h : s.Tables) (idle : s.initiator = .none) (ended : s.round ≤ s.finished) :
    s.giveUp.Tables := by
  obtain ⟨tasks, eq⟩ := giveUp_eq s
  rw [eq]
  cases error : s.errorOnRcvry with
  | true =>
    have wasOpen : s.chainOpen = true := by rw [chainOpen, error]; rfl
    have table := (h.opened wasOpen).1
    refine h.free wasOpen rfl ended idle rfl rfl ?_
    simp [table]
  | false => exact h.move error.symm rfl rfl id id rfl rfl rfl rfl

theorem Tables.newRound (h : s.Tables) (ended : s.round = s.finished) (a : Alloc) :
    (s.newRound a).Tables := by
  have fresh : s.chain + 1 ∉ s.allocs := by
    intro known
    exact Nat.not_succ_le_self _ (h.le _ known)
  have notFreed : s.chain + 1 ∉ s.frees := fun freed => fresh (h.subset _ freed)
  have later : s.finished < s.round + 1 := by omega
  -- Without an error there is no chain, so every table is freed.
  have none : s.errorOnRcvry = false → ∀ c ∈ s.allocs, c ∈ s.frees := by
    intro error c known
    have shut : s.chainOpen = false := by
      rw [chainOpen, error, decide_eq_false (by omega)]
      rfl
    have freed := h.closed c known
    rw [shut] at freed
    simpa using freed
  have older : ∀ c ∈ (s.chain + 1) :: s.allocs, c ≤ s.chain + 1 := by
    intro c known
    rcases List.mem_cons.1 known with rfl | known
    · exact Nat.le_refl _
    · exact (h.le c known).trans (Nat.le_succ _)
  have more : ∀ c ∈ s.frees, c ∈ (s.chain + 1) :: s.allocs :=
    fun c freed => List.mem_cons_of_mem _ (h.subset c freed)
  have nodup : ((s.chain + 1) :: s.allocs).Nodup := List.nodup_cons.2 ⟨fresh, h.nodupAllocs⟩
  rcases newRound_cases s a with ⟨error, eq⟩ | ⟨error, -, eq⟩ | ⟨error, -, eq⟩ | ⟨error, -, eq⟩
  · rw [eq]
    have wasOpen : s.chainOpen = true := by rw [chainOpen, error]; rfl
    refine h.keep wasOpen ?_ (fun _ => later) nofun rfl rfl rfl rfl
    rw [chainOpen, Bool.or_eq_true]
    exact .inl error
  · rw [eq]
    constructor
    case pending => exact fun _ => later
    case errors => exact nofun
    case opened => exact fun _ => ⟨rfl, List.mem_cons_self, notFreed⟩
    case closed =>
      intro c known
      rcases List.mem_cons.1 known with rfl | known
      · refine .inr ⟨rfl, ?_⟩
        rw [chainOpen, Bool.or_eq_true]
        exact .inr (decide_eq_true later)
      · exact .inl (none error c known)
    case le => exact older
    case subset => exact more
    case nodupAllocs => exact nodup
    case nodupFrees => exact h.nodupFrees
  · rw [eq]
    have shut : ({ s with chain := s.chain + 1, vapInfo := Option.none, errorOnRcvry := false } :
        Rcvry n).chainOpen = false := by
      rw [chainOpen]
      exact decide_eq_false (by change ¬ s.finished < s.round; omega)
    constructor
    case pending => exact h.pending
    case errors => exact nofun
    case opened =>
      rw [shut]
      exact nofun
    case closed => exact fun c known => .inl (none error c known)
    case le => exact fun c known => (h.le c known).trans (Nat.le_succ _)
    case subset => exact h.subset
    case nodupAllocs => exact h.nodupAllocs
    case nodupFrees => exact h.nodupFrees
  · rw [eq]
    constructor
    case pending => exact h.pending
    case errors => exact nofun
    case opened =>
      intro isOpen
      rw [chainOpen] at isOpen
      have lt : s.finished < s.round := of_decide_eq_true isOpen
      omega
    case closed =>
      intro c known
      rcases List.mem_cons.1 known with rfl | known
      · exact .inl List.mem_cons_self
      · exact .inl (List.mem_cons_of_mem _ (none error c known))
    case le => exact older
    case subset =>
      intro c freed
      rcases List.mem_cons.1 freed with rfl | freed
      · exact List.mem_cons_self
      · exact more c freed
    case nodupAllocs => exact nodup
    case nodupFrees => exact List.nodup_cons.2 ⟨notFreed, h.nodupFrees⟩

theorem Paced.finished_le (h : s.Paced) : s.finished ≤ s.round := by
  have taken := h.masterTaken
  have scheduled := h.masterScheduled
  have le : s.master.finished ≤ s.master.busy := by
    cases s.master <;> simp [Master.finished, Master.busy]
  rw [finished]
  omega

/-- No round is in progress when the next one is initiated. -/
theorem Paced.round_eq (h : s.Paced) (free : s.currentRcvryType = .undef) :
    s.round = s.finished := by
  have le := h.finished_le
  have rounds := h.rounds
  have none : s.inRound = false := by rw [Rcvry.inRound, free]; rfl
  rw [none, Bool.toNat_false] at rounds
  omega

theorem Tables.initiate (h : s.Tables) (paced : s.Paced) (idle : s.initiator = .none) (a : Alloc) :
    (s.initiate a).Tables := by
  rcases initiate_cases s a with ⟨-, eq⟩ | ⟨free, t, chosen, next⟩
  · rw [eq]
    exact h.move rfl rfl rfl id id rfl rfl rfl rfl
  · have ended := paced.round_eq free
    obtain ⟨fast, full, forced, current, types, same⟩ := chooseType_eq { s with failTimer := false }
    rw [← chosen] at same
    have tables : t.Tables := by
      rw [same]
      exact h.move rfl rfl rfl id id rfl rfl rfl rfl
    have idle' : t.initiator = .none := by rw [same]; exact idle
    have ended' : t.round = t.finished := by rw [same]; exact ended
    rcases next with ⟨-, eq⟩ | ⟨-, eq⟩
    · rw [eq]
      exact tables.giveUp idle' (Nat.le_of_eq ended')
    · rw [eq]
      exact tables.newRound ended' a

theorem Tables.initiatorStep (h : s.Tables) (ok : Bool) : (s.initiatorStep ok).Tables := by
  rw [Rcvry.initiatorStep]
  split
  case h_1 => exact h
  case h_2 at' =>
    split
    · exact h.move rfl rfl rfl (by rintro ⟨⟩) (fun _ => by rw [at']; rintro ⟨⟩) rfl rfl rfl rfl
    · exact h
  case h_3 at' =>
    split
    · exact h.move rfl rfl rfl (by rintro ⟨⟩) (fun _ => by rw [at']; rintro ⟨⟩) rfl rfl rfl rfl
    · exact h.move rfl rfl rfl (by rintro ⟨⟩) (fun _ => by rw [at']; rintro ⟨⟩) rfl rfl rfl rfl
  case h_4 v at' =>
    split
    · split
      · exact h.move rfl rfl rfl (by rintro ⟨⟩) (fun _ => by rw [at']; rintro ⟨⟩) rfl rfl rfl rfl
      · exact h.move rfl rfl rfl (by rintro ⟨⟩) (fun _ => by rw [at']; rintro ⟨⟩) rfl rfl rfl rfl
    · have lt := h.pending (by rw [at']; rintro ⟨⟩)
      have wasOpen : s.chainOpen = true := by
        rw [chainOpen, decide_eq_true lt, Bool.or_true]
      refine h.keep wasOpen ?_ (fun some => absurd rfl some) (by rintro ⟨⟩) rfl rfl rfl rfl
      exact decide_eq_true lt

theorem Tables.masterStep (h : s.Tables) (paced : s.Paced) (ok : Bool) (a : Alloc) :
    (s.masterStep ok a).Tables := by
  -- The master goes on within its round.
  have move : ∀ (m : Master) (sync rlse : Nat), m.finished = s.master.finished →
      { s with master := m, slaveSync := sync, slaveRlse := rlse }.Tables := by
    intro m sync rlse same
    refine h.move rfl ?_ rfl id id rfl rfl rfl rfl
    exact congrArg (s.masterDone + ·) same
  rw [Rcvry.masterStep]
  split
  case h_1 at' =>
    split
    · exact move _ _ _ (by rw [at']; rfl)
    · exact h
  case h_2 at' =>
    split
    · split
      · exact move _ _ _ (by rw [at']; rfl)
      · exact move _ _ _ (by rw [at']; rfl)
    · exact h
  case h_3 at' => exact move _ _ _ (by rw [at']; rfl)
  case h_4 at' =>
    split
    · exact { move (.work .isolation s.currentRcvryType) s.slaveSync s.slaveRlse
        (by rw [at']; rfl) with }
    · exact h
  case h_5 stage type at' =>
    cases stage with
    | isolation => exact move _ _ _ (by rw [at']; rfl)
    | fwDump | restoration | configuration =>
      simp only [workStep]
      split
      · exact move _ _ _ (by rw [at']; rfl)
      · exact move _ _ _ (by rw [at']; rfl)
    | finalization =>
      simp only [workStep]
      split
      · exact { move (.release type true 0) s.slaveSync s.slaveRlse (by rw [at']; rfl) with }
      · exact h
  case h_6 at' =>
    split
    · exact move _ _ _ (by rw [at']; rfl)
    · exact move _ _ _ (by rw [at']; rfl)
  case h_7 type res at' =>
    have round := (paced.inRound (by rw [at']; rfl) (by rw [at']; rfl)).2
    have ended : s.finished = s.masterDone := by rw [finished, at']; rfl
    have lt : s.finished < s.round := by omega
    have wasOpen : s.chainOpen = true := by
      rw [chainOpen, decide_eq_true lt, Bool.or_true]
    split
    case isTrue idle =>
      have error : s.errorOnRcvry = false := by
        cases set : s.errorOnRcvry with
        | false => rfl
        | true => exact absurd (h.errors set idle) (Nat.not_le.2 lt)
      split
      · have table := (h.opened wasOpen).1
        refine h.free wasOpen error ?_ idle rfl rfl ?_
        · exact Nat.le_of_eq round
        · simp [vapInfoCleanup, table]
      · exact h.keep wasOpen rfl (fun some => absurd idle some) (fun _ _ => Nat.le_of_eq round)
          rfl rfl rfl rfl
    case isFalse => exact h
  case h_8 type at' =>
    split
    case isTrue idle =>
      have same : (s.initiate a).master = .onError type := (initiate_round s a).1.master.trans at'
      refine (h.initiate paced idle a).move rfl ?_ rfl id id rfl rfl rfl rfl
      rw [finished, finished, same]
      rfl
    case isFalse => exact h
  case h_9 at' =>
    split
    · refine h.move rfl ?_ rfl id id rfl rfl rfl rfl
      rw [finished, finished, at']
      rfl
    · exact h

theorem Tables.slaveStep (h : s.Tables) (i : Fin n) : (s.slaveStep i).Tables := by
  rw [Rcvry.slaveStep]
  split
  · split
    · exact { h with }
    · exact h
  · exact { h with }
  · split
    · exact { h with }
    · exact h

theorem Tables.step (h : s.Tables) (paced : s.Paced) (e : Event n) : (s.step e).Tables := by
  cases e with
  | initiate a =>
    rw [Rcvry.step]
    split
    case isTrue idle => exact h.initiate paced idle a
    case isFalse => exact h
  | initiator ok => exact h.initiatorStep ok
  | master ok a => exact h.masterStep paced ok a
  | slave i => exact h.slaveStep i
  | failTimer | setCfg | setForcedType =>
    rw [Rcvry.step]
    split
    · exact { h with }
    · exact h

/-! ## Who reads the table -/

/-- The next step of `master_recovery` reads the table. -/
def masterReads (s : Rcvry n) : Bool :=
  match s.master with
  | .sync _ | .release .. => true
  | .work .isolation _ | .work .restoration _ | .work .configuration _ => true
  | .finish _ res => res
  | .onError _ => s.errorOnRcvry
  | .idle | .syncBack | .begin | .work .fwDump _ | .work .finalization _ | .returning _ => false

/-- The step reads the table. -/
def reads (s : Rcvry n) : Event n → Bool
  | .initiate _ => s.errorOnRcvry
  | .initiator _ =>
    match s.initiator with
    | .schedule _ => true
    | .none | .acquire => false
  | .master .. => s.masterReads
  | .slave i => (s.slaves i).phase = .idle ∧ (s.slaves i).passed < (s.slaves i).scheduled
  | .failTimer | .setCfg _ | .setForcedType _ => false

/-- The pointer to the table is to one that is allocated and not freed. -/
def TableLive (s : Rcvry n) : Prop := ∃ c, s.vapInfo = some c ∧ c ∈ s.allocs ∧ c ∉ s.frees

theorem chainOpen_of_lt (lt : s.finished < s.round) : s.chainOpen = true := by
  rw [chainOpen, decide_eq_true lt, Bool.or_true]

theorem chainOpen_of_error (error : s.errorOnRcvry = true) : s.chainOpen = true := by
  rw [chainOpen, error, Bool.true_or]

theorem Paced.lt_of_going (h : s.Paced) (busy : s.master.busy = 1)
    (going : s.master.finished = 0) : s.finished < s.round := by
  have round := (h.inRound busy going).2
  rw [finished, going, round]
  exact Nat.lt_succ_self _

theorem Paced.masterReads (paced : s.Paced) (reads : s.masterReads = true) :
    s.chainOpen = true := by
  rw [Rcvry.masterReads] at reads
  split at reads
  case h_1 at' => exact chainOpen_of_lt (paced.lt_of_going (by rw [at']; rfl) (by rw [at']; rfl))
  case h_2 at' => exact chainOpen_of_lt (paced.lt_of_going (by rw [at']; rfl) (by rw [at']; rfl))
  case h_3 at' => exact chainOpen_of_lt (paced.lt_of_going (by rw [at']; rfl) (by rw [at']; rfl))
  case h_4 at' => exact chainOpen_of_lt (paced.lt_of_going (by rw [at']; rfl) (by rw [at']; rfl))
  case h_5 at' => exact chainOpen_of_lt (paced.lt_of_going (by rw [at']; rfl) (by rw [at']; rfl))
  case h_6 at' => exact chainOpen_of_lt (paced.lt_of_going (by rw [at']; rfl) (by rw [at']; rfl))
  case h_7 => exact chainOpen_of_error reads
  all_goals cases reads

/-- A slave that looks up its entry is in the round that is in progress. -/
theorem Paced.lt_of_starting (h : s.Paced) {i : Fin n} (at' : (s.slaves i).phase = .idle)
    (more : (s.slaves i).passed < (s.slaves i).scheduled) : s.finished < s.round := by
  have met := h.met i
  have scheduled := h.scheduled i
  have le : s.master.finished ≤ s.master.synced := by
    cases s.master <;> simp [Master.finished, Master.synced]
  rw [syncs, Slave.synced, at', if_neg (by rintro ⟨⟩)] at met
  rw [finished]
  omega

theorem Tables.live (h : s.Tables) (paced : s.Paced) {e : Event n} (reads : s.reads e = true) :
    s.TableLive := by
  have isOpen : s.chainOpen = true := by
    cases e with
    | initiate => exact chainOpen_of_error reads
    | initiator =>
      apply chainOpen_of_lt
      apply h.pending
      intro none
      simp only [Rcvry.reads, none] at reads
      cases reads
    | master => exact paced.masterReads reads
    | slave i =>
      obtain ⟨idle, more⟩ := of_decide_eq_true reads
      exact chainOpen_of_lt (paced.lt_of_starting idle more)
    | failTimer | setCfg | setForcedType => cases reads
  exact ⟨s.chain, h.opened isOpen⟩

/-! ## A recovery in progress runs -/

/-- A `master_recovery` that is not at the end of its round is scheduled or running. -/
def isPending (s : Rcvry n) : Bool := s.finished < s.masterScheduled

/-- There is memory for the table, and for the task of the master. -/
def Fed (s : Rcvry n) : Event n → Prop
  | .initiate a | .master _ a => a = .ok
  | .initiator ok => s.initiator = .schedule 0 → ok = true
  | _ => True

instance (s : Rcvry n) : ∀ e, Decidable (s.Fed e)
  | .initiate _ | .master .. => inferInstanceAs (Decidable (_ = _))
  | .initiator _ => inferInstanceAs (Decidable (_ → _))
  | .slave _ | .failTimer | .setCfg _ | .setForcedType _ => .isTrue trivial

def Served (s : Rcvry n) : Prop :=
  s.inRound = true → s.finished < s.masterScheduled + s.initiator.owes 0

theorem Served.move (h : s.Served) {t : Rcvry n} (current : t.inRound = true → s.inRound = true)
    (ended : t.finished = s.finished)
    (scheduled : t.masterScheduled + t.initiator.owes 0 = s.masterScheduled + s.initiator.owes 0) :
    t.Served := by
  intro inRound
  rw [ended, scheduled]
  exact h (current inRound)

theorem Served.initiate (h : s.Served) (paced : s.Paced) : (s.initiate .ok).Served := by
  rcases initiate_cases s .ok with ⟨-, eq⟩ | ⟨free, t, chosen, ⟨none, eq⟩ | ⟨inRound, eq⟩⟩
  · rw [eq]
    exact h
  · obtain ⟨tasks, gone⟩ := giveUp_eq t
    intro inRound
    rw [eq, gone, Rcvry.inRound] at inRound
    rcases of_decide_eq_true inRound with fast | full
    · rcases none with none | none <;> rw [none] at fast <;> cases fast
    · rcases none with none | none <;> rw [none] at full <;> cases full
  · obtain ⟨fast, full, forced, current, types, same⟩ := chooseType_eq { s with failTimer := false }
    have new : (t.newRound .ok).initiator = .acquire := by
      rcases newRound_cases t .ok with ⟨-, new⟩ | ⟨-, -, new⟩ | ⟨-, wrong, -⟩ | ⟨-, wrong, -⟩
      · rw [new]
      · rw [new]
      · cases wrong
      · cases wrong
    obtain ⟨kept, -⟩ := initiate_round s .ok
    intro _
    have taken := paced.masterTaken
    have le : s.master.finished ≤ s.master.busy := by
      cases s.master <;> simp [Master.finished, Master.busy]
    rw [finished, kept.masterDone, kept.master, kept.masterScheduled, eq, new]
    simp only [Initiator.owes]
    omega

theorem Served.initiatorStep (h : s.Served) {ok : Bool} (fed : s.Fed (.initiator ok)) :
    (s.initiatorStep ok).Served := by
  rw [Rcvry.initiatorStep]
  split
  case h_1 => exact h
  case h_2 at' =>
    split
    · exact h.move id rfl (by rw [at']; rfl)
    · exact h
  case h_3 at' =>
    rw [if_pos (fed at')]
    exact h.move id rfl (by rw [at']; rfl)
  case h_4 at' =>
    split
    · split
      · exact h.move id rfl (by rw [at']; rfl)
      · exact h.move id rfl (by rw [at']; rfl)
    · exact h.move id rfl (by rw [at']; rfl)

theorem Served.masterStep (h : s.Served) (paced : s.Paced) (ok : Bool) :
    (s.masterStep ok .ok).Served := by
  -- The master goes on within its round.
  have move : ∀ (m : Master) (sync rlse : Nat), m.finished = s.master.finished →
      { s with master := m, slaveSync := sync, slaveRlse := rlse }.Served := by
    intro m sync rlse same
    exact h.move id (congrArg (s.masterDone + ·) same) rfl
  rw [Rcvry.masterStep]
  split
  case h_1 at' =>
    split
    · exact move _ _ _ (by rw [at']; rfl)
    · exact h
  case h_2 at' =>
    split
    · split
      · exact move _ _ _ (by rw [at']; rfl)
      · exact move _ _ _ (by rw [at']; rfl)
    · exact h
  case h_3 at' => exact move _ _ _ (by rw [at']; rfl)
  case h_4 at' =>
    split
    · exact move _ s.slaveSync s.slaveRlse (by rw [at']; rfl)
    · exact h
  case h_5 stage type at' =>
    cases stage with
    | isolation => exact move _ _ _ (by rw [at']; rfl)
    | fwDump | restoration | configuration =>
      simp only [workStep]
      split
      · exact move _ _ _ (by rw [at']; rfl)
      · exact move _ _ _ (by rw [at']; rfl)
    | finalization =>
      simp only [workStep]
      split
      · exact move _ s.slaveSync s.slaveRlse (by rw [at']; rfl)
      · exact h
  case h_6 at' =>
    split
    · exact move _ _ _ (by rw [at']; rfl)
    · exact move _ _ _ (by rw [at']; rfl)
  case h_7 at' =>
    split
    · split
      · rintro ⟨⟩
      · rintro ⟨⟩
    · exact h
  case h_8 type at' =>
    split
    case isTrue idle =>
      have same : (s.initiate .ok).master = .onError type :=
        (initiate_round s .ok).1.master.trans at'
      refine (h.initiate paced).move id ?_ rfl
      rw [finished, finished, same]
      rfl
    case isFalse => exact h
  case h_9 at' =>
    split
    · refine h.move id ?_ rfl
      rw [finished, finished, at']
      rfl
    · exact h

theorem Served.step (h : s.Served) (paced : s.Paced) {e : Event n} (fed : s.Fed e) :
    (s.step e).Served := by
  cases e with
  | initiate a =>
    rw [show a = .ok from fed, Rcvry.step]
    split
    · exact h.initiate paced
    · exact h
  | initiator ok => exact h.initiatorStep fed
  | master ok a =>
    rw [show a = .ok from fed]
    exact h.masterStep paced ok
  | slave i =>
    rw [Rcvry.step, slaveStep]
    split
    · split <;> exact h
    · exact h
    · split <;> exact h
  | failTimer | setCfg | setForcedType =>
    rw [Rcvry.step]
    split <;> exact h

end Rcvry

open Rcvry

variable {n : Nat}

/-- A table is allocated once for a chain of rounds, and it is freed once, when the chain ends.
Nobody reads a table that is freed. And when there is memory for the table and for the task of the
master, a recovery that is in progress is scheduled or running. -/
theorem recovery_bookkeeping {isAp : Bool} {cfg : RcvryCfg} {s : Rcvry n}
    (run : Runs step (fun _ _ => True) (init n isAp cfg) s) :
    (s.allocs.Nodup ∧ s.frees.Nodup ∧
      ∀ c ∈ s.allocs, c ∈ s.frees ↔ ¬ (c = s.chain ∧ s.chainOpen = true)) ∧
    (∀ e, s.reads e = true → s.TableLive) ∧
    (Runs step Fed (init n isAp cfg) s →
      s.initiator = .none → s.inRound = true → s.isPending = true) := by
  have both : s.Paced ∧ s.Tables := by
    apply run.invariant
    · exact ⟨init_paced isAp cfg, init_tables isAp cfg⟩
    · rintro s e ⟨paced, tables⟩ -
      exact ⟨paced.step e, tables.step paced e⟩
  obtain ⟨paced, tables⟩ := both
  refine ⟨⟨tables.nodupAllocs, tables.nodupFrees, ?_⟩, fun e reads => tables.live paced reads, ?_⟩
  · intro c known
    constructor
    · rintro freed ⟨rfl, isOpen⟩
      exact (tables.opened isOpen).2.2 freed
    · intro ended
      exact (tables.closed c known).resolve_right ended
  · intro fed idle inRound
    have served : s.Paced ∧ s.Served := by
      apply fed.invariant
      · exact ⟨init_paced isAp cfg, nofun⟩
      · rintro s e ⟨paced, served⟩ fed
        exact ⟨paced.step e, served.step paced fed⟩
    have lt := served.2 inRound
    rw [idle] at lt
    exact decide_eq_true lt

/-- A crash, while there is no memory for the table. -/
def noMemory : Rcvry 0 := step (init 0 true defaultCfg) (.initiate .noArray)

theorem recovery_bookkeeping_one :
    let s := ([.initiate .ok, .initiator true, .initiator true, .initiator true] :
      List (Event 0)).foldl step (init 0 true defaultCfg)
    s.inRound = true ∧ s.isPending = true := by
  intro s
  have run : Runs step (fun _ _ => True) (init 0 true defaultCfg) s := by
    apply Runs.of_allowed
    decide +kernel
  have fed : Runs step Fed (init 0 true defaultCfg) s := by
    apply Runs.of_allowed
    decide +kernel
  have inRound : s.inRound = true := by decide +kernel
  exact ⟨inRound, (recovery_bookkeeping run).2.2 fed (by decide +kernel) inRound⟩

/-- The recovery is in progress and nothing is scheduled, nor will anything be by a later crash. -/
theorem in_progress_for_good :
    noMemory.inRound = true ∧ noMemory.initiator = .none ∧ noMemory.isPending = false ∧
      noMemory.tasks = [] ∧ (noMemory.step (.initiate .ok)).tasks = [] ∧
      (noMemory.step (.initiate .ok)).initiator = .none := by
  decide +kernel

end Wave300.Recovery
