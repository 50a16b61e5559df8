import Wave300.Ta.Measure

/-!
# References on stations

The traffic analyzer holds a station by the entry in its list. `mtlk_ta_on_connect` says nothing
when there is no memory for the entry, and `mtlk_ta_on_disconnect` releases a reference in any case.
-/

namespace Wave300.Ta

open Lib

/-- The list of stations, the references that were taken on each less those that were released, and
whether the assertions have held. `joined` is the stations that have connected and not disconnected
yet, and `refused` those for which there was no memory when they last connected. -/
structure Stations where
  meter : Meter
  refs : Nat → Int
  asserts : Bool
  joined : Finset Nat
  refused : Finset Nat

namespace Stations

def init : Stations := ⟨.init, fun _ => 0, true, ∅, ∅⟩

def incref (refs : Nat → Int) (sta : Nat) : Nat → Int := Function.update refs sta (refs sta + 1)

def decref (refs : Nat → Int) (sta : Nat) : Nat → Int := Function.update refs sta (refs sta - 1)

/-- `mtlk_ta_on_connect` -/
def onConnect (s : Stations) (sta : Nat) (allocated : Bool) : Stations where
  meter := mtlkTaOnConnect s.meter sta allocated
  refs := if allocated then incref s.refs sta else s.refs
  asserts := s.asserts
  joined := insert sta s.joined
  refused := if allocated then s.refused.erase sta else insert sta s.refused

/-- `mtlk_ta_on_disconnect`. It asserts that the entry was found, and so does
`mtlk_osal_mem_free`. -/
def onDisconnect (s : Stations) (sta : Nat) : Stations where
  meter := mtlkTaOnDisconnect s.meter sta
  refs := decref s.refs sta
  asserts := s.asserts && s.meter.staWssList.any fun e => e.sta = sta
  joined := s.joined.erase sta
  refused := s.refused

def step (s : Stations) : MeterOp → Stations
  | .connect sta allocated => s.onConnect sta allocated
  | .disconnect sta => s.onDisconnect sta
  | op => { s with meter := s.meter.step op }

/-- A station connects and disconnects alternately. -/
def Alternates (s : Stations) : MeterOp → Prop
  | .connect sta _ => sta ∉ s.joined
  | .disconnect sta => sta ∈ s.joined
  | _ => True

instance (s : Stations) : ∀ op : MeterOp, Decidable (s.Alternates op)
  | .connect _ _ => inferInstanceAs (Decidable (_ ∉ _))
  | .disconnect _ => inferInstanceAs (Decidable (_ ∈ _))
  | .analyzer _ | .transfer _ _ _ => .isTrue trivial

/-- The stations in the list. -/
def listed (s : Stations) : List Nat := s.meter.staWssList.map StaWss.sta

/-- The references that the last `mtlk_ta_on_connect` of a station took. -/
def took (s : Stations) (sta : Nat) : Int := if sta ∈ s.refused then 0 else 1

/-- What an operation does and leaves: each entry holds one reference, a station is in the list
once, and a disconnect undoes what the connect did. -/
structure Right (s : Stations) (op : MeterOp) : Prop where
  held : ∀ sta, (s.step op).refs sta = (s.step op).listed.count sta
  once : (s.step op).listed.Nodup
  undone : ∀ sta, op = .disconnect sta →
    (s.step op).meter.staWssList = s.meter.staWssList.filter (·.sta ≠ sta) ∧
      (s.step op).refs = Function.update s.refs sta (s.refs sta - s.took sta)
  asserted : (s.step op).asserts = true

/-- There was memory when the station that disconnects last connected. -/
def Served (s : Stations) : MeterOp → Prop
  | .disconnect sta => sta ∉ s.refused
  | _ => True

instance (s : Stations) : ∀ op : MeterOp, Decidable (s.Served op)
  | .disconnect _ => inferInstanceAs (Decidable (_ ∉ _))
  | .connect _ _ | .analyzer _ | .transfer _ _ _ => .isTrue trivial

variable {s : Stations} {op : MeterOp} {sta : Nat} {allocated : Bool}

/-! ## The list -/

theorem listed_analyzer (m : Meter) (op : Op) :
    (m.step (.analyzer op)).staWssList.map StaWss.sta = m.staWssList.map StaWss.sta := by
  cases op with
  | tick =>
    simp only [Meter.step, Meter.tick]
    split
    · split
      · rw [critCocLoop_list, map_sample_sta]
      · exact map_sample_sta _ _
    · rfl
  | cocCfg | pcocCfg | setResolution | start | stop | register | unregister => rfl

theorem listed_connect : (s.onConnect sta allocated).listed =
    if allocated then sta :: s.listed else s.listed := by
  cases allocated <;> rfl

/-- A station is in the list once. -/
theorem excluded_eq_filter {l : List StaWss} (once : (l.map StaWss.sta).Nodup) (sta : Nat) :
    l.eraseP (fun e => e.sta = sta) = l.filter (·.sta ≠ sta) := by
  induction l with
  | nil => rfl
  | cons e l ih =>
    rw [List.map_cons, List.nodup_cons, List.mem_map] at once
    by_cases found : e.sta = sta
    · have others : ∀ e' ∈ l, e'.sta ≠ sta := by
        intro e' mem again
        exact once.1 ⟨e', mem, again.trans found.symm⟩
      rw [List.eraseP_cons_of_pos (by simpa using found),
        List.filter_cons_of_neg (by simpa using found)]
      exact (List.filter_eq_self.2 fun e' mem => by simpa using others e' mem).symm
    · rw [List.eraseP_cons_of_neg (by simpa using found),
        List.filter_cons_of_pos (by simpa using found), ih once.2]

theorem listed_disconnect (once : s.listed.Nodup) :
    (s.onDisconnect sta).listed = s.listed.filter (· ≠ sta) := by
  rw [listed, onDisconnect, mtlkTaOnDisconnect, excluded_eq_filter once, listed, List.filter_map]
  rfl

@[simp] theorem onDisconnect_refs : (s.onDisconnect sta).refs = decref s.refs sta := rfl

theorem found_iff : (s.meter.staWssList.any fun e => e.sta = sta) = true ↔ sta ∈ s.listed := by
  simp [listed]

/-! ## Runs -/

/-- The stations in the list are those that have connected when there was memory. -/
structure Counted (s : Stations) : Prop where
  held : ∀ sta, s.refs sta = s.listed.count sta
  once : s.listed.Nodup
  asserted : s.asserts = true
  known : ∀ sta, sta ∈ s.listed ↔ sta ∈ s.joined ∧ sta ∉ s.refused

theorem Counted.init : Counted init where
  held _ := rfl
  once := List.nodup_nil
  asserted := rfl
  known := by simp [listed, Stations.init, Meter.init]

theorem Counted.connect (h : Counted s) (new : sta ∉ s.joined) :
    Counted (s.onConnect sta allocated) := by
  have absent : sta ∉ s.listed := fun there => new ((h.known sta).1 there).1
  cases allocated with
  | true =>
    constructor
    case held =>
      intro other
      rw [listed_connect, if_pos rfl, List.count_cons]
      by_cases is : other = sta
      · subst is
        simp [onConnect, incref, h.held]
      · simp [onConnect, incref, Function.update_of_ne is, h.held, Ne.symm is]
    case once =>
      rw [listed_connect, if_pos rfl]
      exact List.nodup_cons.2 ⟨absent, h.once⟩
    case asserted => exact h.asserted
    case known =>
      intro other
      rw [listed_connect, if_pos rfl, List.mem_cons, h.known]
      simp only [onConnect, if_true, Finset.mem_insert, Finset.mem_erase]
      tauto
  | false =>
    constructor
    case held => exact h.held
    case once => exact h.once
    case asserted => exact h.asserted
    case known =>
      intro other
      rw [listed_connect, if_neg Bool.false_ne_true, h.known]
      simp only [onConnect, Bool.false_eq_true, if_false, Finset.mem_insert]
      constructor
      · rintro ⟨joined, served⟩
        refine ⟨.inr joined, ?_⟩
        rintro (rfl | refused)
        · exact new joined
        · exact served refused
      · rintro ⟨rfl | joined, served⟩
        · exact absurd (.inl rfl) served
        · exact ⟨joined, fun refused => served (.inr refused)⟩

theorem Counted.disconnect (h : Counted s) (served : sta ∈ s.listed) :
    Counted (s.onDisconnect sta) := by
  constructor
  case held =>
    intro other
    rw [listed_disconnect h.once]
    by_cases is : other = sta
    · subst is
      have once : s.listed.count other = 1 := List.count_eq_one_of_mem h.once served
      have none : (s.listed.filter (· ≠ other)).count other = 0 := by
        rw [List.count_eq_zero]
        simp
      rw [none, onDisconnect_refs, decref, Function.update_self, h.held, once]
      rfl
    · rw [List.count_filter (by simpa using is), onDisconnect_refs, decref,
        Function.update_of_ne is]
      exact h.held other
  case once =>
    rw [listed_disconnect h.once]
    exact h.once.filter _
  case asserted =>
    rw [onDisconnect, h.asserted, Bool.true_and]
    exact found_iff.2 served
  case known =>
    intro other
    rw [listed_disconnect h.once, List.mem_filter, h.known]
    simp only [onDisconnect, Finset.mem_erase, decide_eq_true_eq]
    tauto

theorem Counted.analyzer (h : Counted s) (op : Op) : Counted (s.step (.analyzer op)) := by
  have same : (s.step (.analyzer op)).listed = s.listed := listed_analyzer s.meter op
  constructor
  case held =>
    rw [same]
    exact h.held
  case once =>
    rw [same]
    exact h.once
  case asserted => exact h.asserted
  case known =>
    rw [same]
    exact h.known

/-- The invariant is what is right after an operation other than a disconnect. -/
theorem Counted.right (h : Counted (s.step op)) (other : ∀ sta, op ≠ .disconnect sta) :
    s.Right op where
  held := h.held
  once := h.once
  undone sta is := absurd is (other sta)
  asserted := h.asserted

theorem Counted.right_iff (h : Counted s) (alternates : s.Alternates op) :
    s.Right op ↔ s.Served op := by
  cases op with
  | connect sta allocated =>
    have next : Counted (s.step (.connect sta allocated)) := h.connect alternates
    exact iff_of_true (next.right (by simp)) trivial
  | disconnect sta =>
    constructor
    · intro right
      have found := right.asserted
      rw [step, onDisconnect, h.asserted, Bool.true_and, found_iff] at found
      exact ((h.known sta).1 found).2
    · intro served
      have there : sta ∈ s.listed := (h.known sta).2 ⟨alternates, served⟩
      have next : Counted (s.step (.disconnect sta)) := h.disconnect there
      refine ⟨next.held, next.once, ?_, next.asserted⟩
      rintro _ ⟨⟩
      refine ⟨excluded_eq_filter h.once sta, ?_⟩
      rw [took, if_neg served]
      rfl
  | analyzer op => exact iff_of_true ((h.analyzer op).right (by simp)) trivial
  | transfer sta received sent =>
    have next : Counted (s.step (.transfer sta received sent)) :=
      ⟨h.held, h.once, h.asserted, h.known⟩
    exact iff_of_true (next.right (by simp)) trivial

theorem Counted.step (h : Counted s) (alternates : s.Alternates op) (served : s.Served op) :
    Counted (s.step op) := by
  cases op with
  | connect sta allocated => exact h.connect alternates
  | disconnect sta => exact h.disconnect ((h.known sta).2 ⟨alternates, served⟩)
  | analyzer op => exact h.analyzer op
  | transfer sta received sent => exact ⟨h.held, h.once, h.asserted, h.known⟩

/-- In a run in which each station connects and disconnects alternately, the list and the references
are right after each operation exactly when there was memory for every station that disconnects. -/
theorem stations_right_iff (ops : List MeterOp) (alternate : Allowed step Alternates init ops) :
    Allowed step Right init ops ↔ Allowed step Served init ops :=
  alternate.iff Counted.init (fun _ _ counted alternates => counted.right_iff alternates)
    fun _ _ counted alternates right =>
      counted.step alternates ((counted.right_iff alternates).1 right)

/-- Two stations connect, and one of them disconnects after a tick. -/
theorem stations_right_served :
    Allowed step Right init
      [.connect 1 true, .connect 2 false, .analyzer .tick, .disconnect 1, .connect 1 true] :=
  (stations_right_iff _ (by decide)).2 (by decide)

/-- There is no memory when a station connects. It disconnects, and a reference that was not taken
is released. -/
theorem unserved_released : ¬ ∀ ops : List MeterOp,
    Allowed step Alternates init ops → Allowed step Right init ops := by
  intro all
  have right := all [.connect 1 false, .disconnect 1] (by decide)
  exact absurd (right.2.1.held 1) (by decide)

end Stations

end Wave300.Ta
