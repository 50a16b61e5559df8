import Wave300.Lib.Trace
import Wave300.Ps.Indications

/-!
# The counter of stations in power save

The counter is the number of connected stations whose flag is set, but for the indication whose
handler has set a flag and not told the core yet. A station that leaves takes its share with it,
unless it leaves between the look-up of an indication that changes its flag and the change.
-/

namespace Wave300.Ps

open Lib

variable {α : Type} {limit : UInt32} {s : Core α} {id : Nat} {enabled : Bool}

/-- What the counter is still to be changed by. -/
def Handler.pending : Handler → Int
  | .flagged _ true => 1
  | .flagged _ false => -1
  | _ => 0

/-- The station whose indication is handled. -/
def Handler.sta : Handler → Option Nat
  | .idle => none
  | .found id _ | .differs id _ | .flagged id _ => some id

/-- The handler is going to change the flag of this station, if that does not change before. -/
def Handler.willSet (handler : Handler) (id : Nat) (asleep : Bool) : Bool :=
  match handler with
  | .found i enabled => i == id && asleep != enabled
  | .differs i _ => i == id
  | _ => false

/-- A removal of the station now is not accounted for: the flag is going to change when the
station is gone, or it is set and the counter is not raised yet. -/
def Core.Loses (s : Core α) (id : Nat) : Prop :=
  s.IsConnected id ∧ (s.isAsleep id = true ∧ s.stasInPsMode = 0 ∨
    s.handler.willSet id (s.isAsleep id) = true)

instance (s : Core α) (id : Nat) : Decidable (s.Loses id) := inferInstanceAs (Decidable (_ ∧ _))

/-- No station is removed that is not accounted for. -/
def Accounted (s : Core α) : Step α → Prop
  | .removeSta id => ¬ s.Loses id
  | _ => True

instance (s : Core α) : ∀ i, Decidable (Accounted s i)
  | .removeSta _ => inferInstanceAs (Decidable (¬ _))
  | .pmUpdate _ _ | .handle | .addSta _ _ => .isTrue trivial

/-- The handler goes on, and nothing else happens. -/
def Handling (_ : Core α) (i : Step α) : Prop := i = .handle

/-- Whenever no indication is handled the counter is the number of stations that sleep, and the
broadcast limit is the one for that. -/
structure Exact (limit : UInt32) (s : Core α) : Prop where
  counted : s.handler = .idle → s.stasInPsMode = s.asleep
  noUnderflow : 0 ≤ s.stasInPsMode
  limited : s.handler = .idle →
    s.broadcast = (PeerCtx.init limit).setPmEnabled (∃ sta ∈ s.hash, s.isAsleep sta.id)

/-- The station that was found is connected still, or its flag will not be changed. -/
def Core.Agrees (s : Core α) : Prop :=
  match s.handler with
  | .found id enabled => s.IsConnected id ∨ s.isAsleep id = enabled
  | .differs id enabled => s.IsConnected id ∧ s.isAsleep id ≠ enabled
  | _ => True

structure Inv (limit : UInt32) (s : Core α) : Prop where
  distinct : (s.hash.map Sta.id).Nodup
  made : ∀ id, s.IsConnected id → id < s.created
  handled : ∀ id ∈ s.handler.sta, id < s.created
  agrees : s.Agrees
  counted : s.stasInPsMode + s.handler.pending = s.asleep
  nonneg : 0 ≤ s.stasInPsMode
  limited : s.broadcast = (PeerCtx.init limit).setPmEnabled (s.stasInPsMode ≠ 0)

/-! ## What each step does to the number of stations that sleep -/

theorem isAsleep_staSetPmEnabled :
    (s.staSetPmEnabled id enabled).isAsleep = Function.update s.isAsleep id enabled := by
  funext i
  by_cases here : i = id
  · subst here
    simp [Core.isAsleep, Core.staSetPmEnabled, PeerCtx.setPmEnabled]
  · simp [Core.isAsleep, Core.staSetPmEnabled, Function.update_of_ne here]

/-- A flag that is changed counts if the station is connected. -/
theorem asleep_staSetPmEnabled (id : Nat) (enabled : Bool) (distinct : (s.hash.map Sta.id).Nodup) :
    (s.staSetPmEnabled id enabled).asleep + (if s.IsConnected id ∧ s.isAsleep id then 1 else 0) =
      s.asleep + (if s.IsConnected id ∧ enabled then 1 else 0) := by
  have counts := countP_update (k := id) distinct s.isAsleep enabled
  rw [← isAsleep_staSetPmEnabled] at counts
  exact counts

theorem asleep_remove (id : Nat) (distinct : (s.hash.map Sta.id).Nodup) :
    (s.remove id).asleep + (if s.IsConnected id ∧ s.isAsleep id then 1 else 0) = s.asleep :=
  countP_removeKey distinct s.isAsleep

theorem asleep_ne_zero : s.asleep ≠ 0 ↔ ∃ sta ∈ s.hash, s.isAsleep sta.id := by
  rw [← Nat.pos_iff_ne_zero, Core.asleep, List.countP_pos_iff]

/-- The limit is the one for the counter, after each change of it. -/
theorem limited_setPmEnabled
    (limited : s.broadcast = (PeerCtx.init limit).setPmEnabled (s.stasInPsMode ≠ 0)) :
    (s.setPmEnabled enabled).broadcast =
      (PeerCtx.init limit).setPmEnabled ((s.setPmEnabled enabled).stasInPsMode ≠ 0) := by
  simp only [Core.setPmEnabled, limited]
  rfl

/-! ## The invariant -/

theorem Inv.start : Inv limit (Core.init limit : Core α) where
  distinct := List.nodup_nil
  made := by simp [Core.IsConnected, Core.init]
  handled := by simp [Handler.sta, Core.init]
  agrees := trivial
  counted := rfl
  nonneg := le_refl _
  limited := rfl

theorem Inv.findSta [DecidableEq α] (h : Inv limit s) (idle : s.handler = .idle) (addr : α)
    (mode : UInt8) : Inv limit (s.findSta addr mode) := by
  simp only [Core.findSta]
  split
  next sta found =>
    have connected : s.IsConnected sta.id := List.mem_map_of_mem (findKey_some found).1
    have counted := h.counted
    rw [idle] at counted
    constructor
    case distinct => exact h.distinct
    case made => exact h.made
    case handled =>
      rintro id ⟨rfl⟩
      exact h.made _ connected
    case agrees => exact .inl connected
    case counted => exact counted
    case nonneg => exact h.nonneg
    case limited => exact h.limited
  next => exact h

theorem Inv.compare (h : Inv limit s) (found : s.handler = .found id enabled) :
    Inv limit { s with
      handler := if s.isAsleep id ≠ enabled then .differs id enabled else .idle } := by
  have counted := h.counted
  have agrees := h.agrees
  rw [found] at counted
  simp only [Core.Agrees, found] at agrees
  constructor
  case distinct => exact h.distinct
  case made => exact h.made
  case handled =>
    intro i mem
    split at mem
    · obtain rfl : id = i := Option.some_inj.1 mem
      exact h.handled id (by rw [found]; rfl)
    · cases mem
  case agrees =>
    by_cases differs : s.isAsleep id ≠ enabled
    · simp only [Core.Agrees, if_pos differs]
      exact ⟨agrees.resolve_right differs, differs⟩
    · simp only [Core.Agrees, if_neg differs]
  case counted =>
    split
    · exact counted
    · exact counted
  case nonneg => exact h.nonneg
  case limited => exact h.limited

/-- The flag is set, and the counter is behind by one. -/
theorem Inv.setFlag (h : Inv limit s) (differs : s.handler = .differs id enabled) :
    Inv limit { s.staSetPmEnabled id enabled with handler := .flagged id enabled } := by
  have counted := h.counted
  have agrees := h.agrees
  rw [differs] at counted
  simp only [Core.Agrees, differs] at agrees
  constructor
  case distinct => exact h.distinct
  case made => exact h.made
  case handled =>
    rintro i ⟨rfl⟩
    exact h.handled id (by rw [differs]; rfl)
  case agrees => trivial
  case counted =>
    have changes := asleep_staSetPmEnabled id enabled h.distinct
    cases enabled with
    | true =>
      have awake := Bool.eq_false_iff.2 agrees.2
      change s.stasInPsMode + 1 = ((s.staSetPmEnabled id true).asleep : Int)
      change s.stasInPsMode + 0 = (s.asleep : Int) at counted
      simp only [agrees.1, awake, and_false, and_true, Bool.false_eq_true, if_false, if_true]
        at changes
      omega
    | false =>
      have asleep := Bool.of_not_eq_false agrees.2
      change s.stasInPsMode + -1 = ((s.staSetPmEnabled id false).asleep : Int)
      change s.stasInPsMode + 0 = (s.asleep : Int) at counted
      simp only [agrees.1, asleep, and_false, and_true, Bool.false_eq_true, if_false, if_true]
        at changes
      omega
  case nonneg => exact h.nonneg
  case limited => exact h.limited

/-- The counter catches up. -/
theorem Inv.setCounter (h : Inv limit s) (flagged : s.handler = .flagged id enabled) :
    Inv limit { s.setPmEnabled enabled with handler := .idle } := by
  have counted := h.counted
  have nonneg := h.nonneg
  rw [flagged] at counted
  constructor
  case distinct => exact h.distinct
  case made => exact h.made
  case handled =>
    rintro i ⟨⟩
  case agrees => trivial
  case counted =>
    cases enabled with
    | true => exact (add_zero _).trans counted
    | false => exact (add_zero _).trans counted
  case nonneg =>
    cases enabled with
    | true => exact Int.add_nonneg nonneg Int.one_nonneg
    | false =>
      change s.stasInPsMode + -1 = (s.asleep : Int) at counted
      change 0 ≤ s.stasInPsMode - 1
      omega
  case limited => exact limited_setPmEnabled h.limited

theorem Inv.handle (h : Inv limit s) : Inv limit s.handle := by
  simp only [Core.handle]
  split
  next => exact h
  next id enabled found => exact h.compare found
  next id enabled differs => exact h.setFlag differs
  next id enabled flagged => exact h.setCounter flagged

/-- A step that keeps the flag of the handler's station, and keeps it connected. -/
theorem Agrees.keep {t : Core α} (agrees : s.Agrees) (handler : t.handler = s.handler)
    (keep : ∀ id ∈ s.handler.sta,
      (s.IsConnected id → t.IsConnected id) ∧ t.isAsleep id = s.isAsleep id) : t.Agrees := by
  simp only [Core.Agrees, handler] at agrees ⊢
  cases at_ : s.handler with
  | idle | flagged => trivial
  | found id enabled =>
    obtain ⟨connected, same⟩ := keep id (by rw [at_]; rfl)
    rw [at_] at agrees
    exact agrees.imp connected same.trans
  | differs id enabled =>
    obtain ⟨connected, same⟩ := keep id (by rw [at_]; rfl)
    rw [at_] at agrees
    exact ⟨connected agrees.1, same.trans_ne agrees.2⟩

theorem isAsleep_insert_of_lt {addr : α} {ctx : PeerCtx} (old : id < s.created) :
    (s.insert addr ctx).isAsleep id = s.isAsleep id := by
  simp [Core.isAsleep, Core.insert, Function.update_of_ne old.ne]

theorem asleep_insert {addr : α} {ctx : PeerCtx} (old : ∀ sta ∈ s.hash, sta.id < s.created)
    (awake : ctx.psModeEnabled = false) : (s.insert addr ctx).asleep = s.asleep := by
  have new : (s.insert addr ctx).isAsleep s.created = false := by
    simp [Core.isAsleep, Core.insert, awake]
  have others : (s.insert addr ctx).asleep =
      s.hash.countP fun sta => (s.insert addr ctx).isAsleep sta.id :=
    List.countP_cons_of_neg (by simpa using new)
  rw [others]
  apply List.countP_congr
  intro sta mem
  rw [isAsleep_insert_of_lt (old sta mem)]

theorem Inv.insert (h : Inv limit s) (addr : α) {ctx : PeerCtx}
    (awake : ctx.psModeEnabled = false) : Inv limit (s.insert addr ctx) := by
  have old : ∀ sta ∈ s.hash, sta.id < s.created := by
    intro sta mem
    exact h.made _ (List.mem_map_of_mem mem)
  constructor
  case distinct =>
    refine List.nodup_cons.2 ⟨?_, h.distinct⟩
    intro known
    exact absurd (h.made _ known) (Nat.lt_irrefl _)
  case made =>
    intro id there
    obtain rfl | there := List.mem_cons.1 there
    · exact Nat.lt_succ_self _
    · exact Nat.lt_succ_of_lt (h.made _ there)
  case handled =>
    intro id handled
    exact Nat.lt_succ_of_lt (h.handled id handled)
  case agrees =>
    apply Agrees.keep (t := s.insert addr ctx) h.agrees rfl
    intro id handled
    exact ⟨List.mem_cons_of_mem _, isAsleep_insert_of_lt (h.handled id handled)⟩
  case counted => exact h.counted.trans (congrArg Nat.cast (asleep_insert old awake).symm)
  case nonneg => exact h.nonneg
  case limited => exact h.limited

/-- A station that connects is awake. -/
theorem Inv.addSta [DecidableEq α] (h : Inv limit s) (addr : α) (dot11nMode : Bool) :
    Inv limit (s.addSta addr dot11nMode) := by
  simp only [Core.addSta]
  split
  next => exact h
  next => exact h.insert addr rfl

theorem isAsleep_remove : (s.remove id).isAsleep = s.isAsleep :=
  rfl

theorem isConnected_remove {i : Nat} :
    (s.remove id).IsConnected i ↔ s.IsConnected i ∧ i ≠ id := by
  rw [Core.IsConnected, Core.remove, map_key_removeKey, List.mem_filter, decide_eq_true_iff]
  rfl

/-- A station that leaves takes its share of the counter with it. -/
theorem Inv.counted_removeSta (h : Inv limit s) (id : Nat) :
    (s.removeSta id).stasInPsMode + s.handler.pending = (s.removeSta id).asleep := by
  have counted := h.counted
  by_cases there : s.IsConnected id
  · have changes := asleep_remove id h.distinct
    rw [Core.removeSta, if_pos there, Core.psModeCleanup, isAsleep_remove]
    by_cases asleep : s.isAsleep id = true
    · rw [if_pos asleep]
      simp only [there, asleep, and_self, if_true] at changes
      change s.stasInPsMode - 1 + s.handler.pending = ((s.remove id).asleep : Int)
      omega
    · rw [if_neg asleep]
      simp only [asleep, and_false, Bool.false_eq_true, if_false, add_zero] at changes
      exact counted.trans (congrArg Nat.cast changes.symm)
  · rw [Core.removeSta, if_neg there]
    exact counted

/-- What is not lost by a removal: the flag of the station will not be set after it. -/
theorem Inv.agrees_remove (h : Inv limit s) (there : s.IsConnected id) (kept : ¬ s.Loses id) :
    (s.remove id).Agrees := by
  have agrees := h.agrees
  have stays : s.handler.willSet id (s.isAsleep id) = false := by
    apply Bool.eq_false_iff.2
    intro will
    exact kept ⟨there, .inr will⟩
  simp only [Core.Agrees] at agrees ⊢
  change match s.handler with
    | .found id' enabled => (s.remove id).IsConnected id' ∨ s.isAsleep id' = enabled
    | .differs id' enabled => (s.remove id).IsConnected id' ∧ s.isAsleep id' ≠ enabled
    | _ => True
  cases at_ : s.handler with
  | idle | flagged => trivial
  | found i enabled =>
    rw [at_] at agrees stays
    by_cases same : i = id
    · subst same
      exact .inr (by simpa [Handler.willSet] using stays)
    · exact agrees.imp_left fun connected => isConnected_remove.2 ⟨connected, same⟩
  | differs i enabled =>
    rw [at_] at agrees stays
    have other : i ≠ id := by simpa [Handler.willSet] using stays
    exact ⟨isConnected_remove.2 ⟨agrees.1, other⟩, agrees.2⟩

theorem Inv.removeSta (h : Inv limit s) (kept : ¬ s.Loses id) : Inv limit (s.removeSta id) := by
  have counted := h.counted_removeSta id
  have nonneg := h.nonneg
  by_cases there : s.IsConnected id
  · have agrees := h.agrees_remove there kept
    rw [Core.removeSta, if_pos there, Core.psModeCleanup, isAsleep_remove] at counted ⊢
    by_cases asleep : s.isAsleep id = true
    · have some : s.stasInPsMode ≠ 0 := fun zero => kept ⟨there, .inl ⟨asleep, zero⟩⟩
      rw [if_pos asleep] at counted ⊢
      constructor
      case distinct => exact nodup_removeKey h.distinct
      case made => exact fun i mem => h.made i (isConnected_remove.1 mem).1
      case handled => exact h.handled
      case agrees => exact agrees
      case counted => exact counted
      case nonneg =>
        change 0 ≤ s.stasInPsMode - 1
        omega
      case limited => exact limited_setPmEnabled h.limited
    · rw [if_neg asleep] at counted ⊢
      constructor
      case distinct => exact nodup_removeKey h.distinct
      case made => exact fun i mem => h.made i (isConnected_remove.1 mem).1
      case handled => exact h.handled
      case agrees => exact agrees
      case counted => exact counted
      case nonneg => exact nonneg
      case limited => exact h.limited
  · rw [Core.removeSta, if_neg there]
    exact h

theorem Inv.step [DecidableEq α] (h : Inv limit s) (i : Step α) (accounted : Accounted s i) :
    Inv limit (step s i) := by
  cases i with
  | pmUpdate addr newPowerMode =>
    simp only [Ps.step]
    split
    next idle => exact h.findSta idle addr newPowerMode
    next => exact h
  | handle => exact h.handle
  | addSta addr dot11nMode => exact h.addSta addr dot11nMode
  | removeSta id => exact h.removeSta accounted

theorem Inv.exact (h : Inv limit s) : Exact limit s := by
  have idle_counted : s.handler = .idle → s.stasInPsMode = s.asleep := by
    intro idle
    have counted := h.counted
    rw [idle] at counted
    exact (add_zero _).symm.trans counted
  constructor
  case counted => exact idle_counted
  case noUnderflow => exact h.nonneg
  case limited =>
    intro idle
    rw [h.limited, idle_counted idle]
    congr 1
    rw [decide_eq_decide, Nat.cast_ne_zero, asleep_ne_zero]

theorem Inv.of_runs [DecidableEq α] (run : Runs Ps.step Accounted (Core.init limit) s) :
    Inv limit s := by
  apply run.invariant Inv.start
  intro s i h accounted
  exact h.step i accounted

/-! ## What a removal that is not accounted for leads to -/

/-- A flag that is set when the station is gone changes the counter for good. -/
theorem drift_of_differs (distinct : (s.hash.map Sta.id).Nodup) (gone : ¬ s.IsConnected id)
    (counted : s.stasInPsMode = s.asleep) (differs : s.handler = .differs id enabled) :
    ¬ Exact limit s.handle.handle := by
  intro exact_
  have flagged :
      s.handle = { s.staSetPmEnabled id enabled with handler := .flagged id enabled } := by
    rw [Core.handle, differs]
  have last : s.handle.handle =
      { (s.staSetPmEnabled id enabled).setPmEnabled enabled with handler := .idle } := by
    rw [flagged]
    rfl
  have same := asleep_staSetPmEnabled id enabled distinct
  simp only [gone, false_and, if_false, add_zero] at same
  rw [last] at exact_
  have equal : (if enabled then s.stasInPsMode + 1 else s.stasInPsMode - 1) =
      ((s.staSetPmEnabled id enabled).asleep : Int) := exact_.counted rfl
  rw [same, counted] at equal
  split at equal
  · omega
  · omega

theorem removeSta_frame (there : s.IsConnected id) :
    (s.removeSta id).handler = s.handler ∧ (s.removeSta id).hash = removeKey Sta.id id s.hash ∧
      (s.removeSta id).peer = s.peer := by
  rw [Core.removeSta, if_pos there, Core.psModeCleanup]
  split
  · exact ⟨rfl, rfl, rfl⟩
  · exact ⟨rfl, rfl, rfl⟩

theorem drift_of_loses [DecidableEq α] (h : Inv limit s) (loses : s.Loses id) :
    ∃ t, Runs step Handling (s.removeSta id) t ∧ ¬ Exact limit t := by
  obtain ⟨there, ⟨asleep, zero⟩ | will⟩ := loses
  · -- the counter goes below 0 at once
    refine ⟨_, .start, ?_⟩
    intro exact_
    have below : (s.removeSta id).stasInPsMode = s.stasInPsMode - 1 := by
      rw [Core.removeSta, if_pos there, Core.psModeCleanup, isAsleep_remove, if_pos asleep]
      rfl
    have nonneg := exact_.noUnderflow
    omega
  · obtain ⟨handler, hash, peer⟩ := removeSta_frame there
    have counted := h.counted_removeSta id
    generalize s.removeSta id = r at counted handler hash peer ⊢
    have distinct : (r.hash.map Sta.id).Nodup := by
      rw [hash]
      exact nodup_removeKey h.distinct
    have gone : ¬ r.IsConnected id := by
      rw [Core.IsConnected, hash]
      exact fun mem => (isConnected_remove.1 mem).2 rfl
    have flag : r.isAsleep id = s.isAsleep id := by rw [Core.isAsleep, peer, Core.isAsleep]
    rw [← handler] at will counted
    rw [← flag] at will
    cases at_ : r.handler with
    | idle | flagged => simp [at_, Handler.willSet] at will
    | found i enabled =>
      obtain ⟨rfl, differs⟩ : i = id ∧ r.isAsleep id ≠ enabled := by
        simpa [at_, Handler.willSet] using will
      have counted : r.stasInPsMode = r.asleep := by simpa [at_, Handler.pending] using counted
      have next : r.handle = { r with handler := .differs i enabled } := by
        rw [Core.handle, at_]
        simp only [if_pos differs]
      have run : Runs step Handling r r.handle.handle.handle :=
        Runs.of_allowed (l := [Step.handle, .handle, .handle]) ⟨rfl, rfl, rfl, trivial⟩
      refine ⟨_, run, ?_⟩
      rw [next]
      exact drift_of_differs distinct gone counted rfl
    | differs i enabled =>
      obtain rfl : i = id := by simpa [at_, Handler.willSet] using will
      have counted : r.stasInPsMode = r.asleep := by simpa [at_, Handler.pending] using counted
      have run : Runs step Handling r r.handle.handle :=
        Runs.of_allowed (l := [Step.handle, .handle]) ⟨rfl, rfl, trivial⟩
      exact ⟨_, run, drift_of_differs distinct gone counted at_⟩

/-- Once the handler is done the counter is the number of connected stations in power save, and
the broadcast queue has the reduced limit just when there are any, provided that no station is
removed which an indication is about to change, or while its flag is set and the counter is at
zero. Such a removal can always be followed by a state where this fails. -/
theorem asleep_counted [DecidableEq α] (run : Runs step Accounted (Core.init limit) s) :
    Exact limit s ∧
      ∀ id, s.Loses id ↔ ∃ t, Runs step Handling (s.removeSta id) t ∧ ¬ Exact limit t := by
  have h := Inv.of_runs run
  refine ⟨h.exact, fun id => ⟨drift_of_loses h, ?_⟩⟩
  rintro ⟨t, handled, inexact⟩
  by_contra kept
  have removed : Runs step Accounted (Core.init limit) (s.removeSta id) :=
    Runs.step (Step.removeSta id) run kept
  have goes_on : Runs step Accounted (s.removeSta id) t := by
    apply handled.mono
    rintro s _ rfl
    trivial
  exact inexact (Inv.of_runs (removed.trans goes_on)).exact

/-- One station goes to sleep, and another that was asleep leaves. -/
def sleeperLeft : List (Step Nat) :=
  [.addSta 1 true, .addSta 2 false, .pmUpdate 1 1, .handle, .handle, .handle, .pmUpdate 2 1,
    .handle, .handle, .handle, .removeSta 0]

theorem asleep_counted_sleeperLeft :
    let s := sleeperLeft.foldl step (Core.init txLimitDefault)
    s.stasInPsMode = s.asleep ∧ s.asleep = 1 ∧ s.broadcast.limit = packetsInMacDuringPm := by
  have run : Runs step Accounted (Core.init txLimitDefault)
      (sleeperLeft.foldl step (Core.init txLimitDefault)) := .of_allowed (by decide)
  exact ⟨(asleep_counted run).1.counted (by decide), by decide, by decide⟩

/-- A station leaves in the middle of the indication that it sleeps. -/
def leftMeanwhile : List (Step Nat) :=
  [.addSta 1 true, .pmUpdate 1 1, .handle, .removeSta 0, .handle, .handle]

/-- The counter stays at 1, with no station. -/
theorem asleep_not_counted :
    ¬ ∀ s : Core Nat, Runs step (fun _ _ => True) (Core.init txLimitDefault) s →
      Exact txLimitDefault s := by
  intro claim
  have run : Runs step (fun _ _ => True) (Core.init txLimitDefault)
      (leftMeanwhile.foldl step (Core.init txLimitDefault)) := .of_allowed (by decide)
  exact absurd ((claim _ run).counted (by decide)) (by decide)

end Wave300.Ps
