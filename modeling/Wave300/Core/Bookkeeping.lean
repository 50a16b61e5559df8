import Wave300.Core.Activation

/-!
# What an activation leaves

The count of active VAPs, `is_stopped`, the network states and `aocs_started` are changed in
different places, and most error exits undo what was done before. One of them does not: when
`mtlk_20_40_start` fails, the VAP already runs in the firmware, its core stays connected and AOCS
started. In the runs without such a failure all of them agree after each operation.
-/

namespace Wave300.Core.Vaps

open Lib

variable {V : Type} {c c' c'' : Vaps V} {master v : V}

/-! ## The network state -/

theorem getNetState_tick (c : Vaps V) (stays : Bool) (v : V) :
    (c.tick stays).getNetState v = c.getNetState v ∨ (c.tick stays).getNetState v = .halted := by
  cases stays with
  | true => exact .inl (by simp [getNetState, tick])
  | false => exact .inr (by simp [getNetState, tick])

theorem tick_ne {stays : Bool} (h : c.getNetState v ≠ .connected) :
    (c.tick stays).getNetState v ≠ .connected := by
  obtain same | halted := c.getNetState_tick stays v
  · rwa [same]
  · rw [halted]
    exact nofun

/-- What an operation on one VAP leaves of the others, and of the count. -/
structure Apart (v : V) (c c' : Vaps V) : Prop where
  others : ∀ w, w ≠ v → c'.getNetState w = c.getNetState w ∨ c'.getNetState w = .halted
  isStopped : c'.isStopped = c.isStopped
  num : c'.activatedVapsNum = c.activatedVapsNum

theorem Apart.trans (h : Apart v c c') (h' : Apart v c' c'') : Apart v c c'' where
  others := by
    intro w ne
    obtain same | halted := h'.others w ne
    · rw [same]
      exact h.others w ne
    · exact .inr halted
  isStopped := h'.isStopped.trans h.isStopped
  num := h'.num.trans h.num

/-- Nothing but the state of one core changes, or of the hardware. -/
structure Only (v : V) (c c' : Vaps V) : Prop extends Apart v c c' where
  aocs : c'.aocsStarted = c.aocsStarted

theorem Only.refl (v : V) (c : Vaps V) : Only v c c := ⟨⟨fun _ _ => .inl rfl, rfl, rfl⟩, rfl⟩

theorem Only.trans (h : Only v c c') (h' : Only v c' c'') : Only v c c'' :=
  ⟨h.toApart.trans h'.toApart, h'.aocs.trans h.aocs⟩

theorem tick_only (v : V) (c : Vaps V) (stays : Bool) : Only v c (c.tick stays) :=
  ⟨⟨fun w _ => c.getNetState_tick stays w, rfl, rfl⟩, rfl⟩

variable [DecidableEq V]

/-- Setting the state of a core succeeds or leaves it as it is. -/
theorem setNetState_net (c : Vaps V) (v : V) (new : NetState) :
    (c.setNetState v new).1 = c ∨
      (c.setNetState v new).1 = { c with net := Function.update c.net v new } := by
  unfold setNetState
  split
  case isTrue halted => exact .inr (by rw [halted])
  case isFalse =>
    split
    · exact .inl rfl
    · split
      · exact .inr rfl
      · exact .inl rfl

theorem setNetState_ok {new : NetState} (ok : (c.setNetState v new).2 = .ok) :
    (c.setNetState v new).1 = { c with net := Function.update c.net v new } := by
  unfold setNetState at ok ⊢
  split
  case isTrue halted => rw [halted]
  case isFalse ne =>
    rw [if_neg ne] at ok
    split at ok
    case isTrue => cases ok
    case isFalse ready =>
      rw [if_neg ready]
      split at ok
      case isTrue mem => rw [if_pos mem]
      case isFalse => cases ok

/-- Only a core that is set to connected becomes connected. -/
theorem setNetState_ne {new : NetState} (ne : new ≠ .connected)
    (h : c.getNetState v ≠ .connected) : (c.setNetState v new).1.getNetState v ≠ .connected := by
  obtain same | set := c.setNetState_net v new
  · rwa [same]
  · rw [set]
    cases hw : c.hwReady with
    | true => simpa [getNetState, hw] using ne
    | false => simp [getNetState]

theorem setNetState_halted (c : Vaps V) (v : V) :
    (c.setNetState v .halted).1.getNetState v = .halted := by
  simp [setNetState, getNetState]

theorem setNetState_only (c : Vaps V) (v : V) (new : NetState) :
    Only v c (c.setNetState v new).1 := by
  obtain same | set := c.setNetState_net v new
  · rw [same]
    exact .refl v c
  · rw [set]
    refine ⟨⟨fun w ne => .inl ?_, rfl, rfl⟩, rfl⟩
    simp [getNetState, ne]

/-! ## Activation -/

section Activate
variable {o : Activation V}

theorem finishVapActivate_only (c : Vaps V) (v : V) (o : Activation V) (result : Err) :
    Only v c (c.finishVapActivate v o result).1 := by
  have ticked := tick_only v c (o.hw .finish)
  unfold finishVapActivate
  dsimp only
  split
  · exact ticked.trans (setNetState_only _ v .ready)
  · exact ticked

theorem finishVapActivate_err (c : Vaps V) (v : V) (o : Activation V) (result : Err) :
    (c.finishVapActivate v o result).2 = result := by
  unfold finishVapActivate
  dsimp only
  split <;> rfl

theorem finishVapActivate_ne (h : c.getNetState v ≠ .connected) (result : Err) :
    (c.finishVapActivate v o result).1.getNetState v ≠ .connected := by
  unfold finishVapActivate
  dsimp only
  split
  · exact setNetState_ne nofun (tick_ne h)
  · exact tick_ne h

/-- When nothing failed the core is connected, unless the hardware failed. -/
theorem finishVapActivate_up (h : c.getNetState v = .connected ∨ c.getNetState v = .halted) :
    (c.finishVapActivate v o .ok).1.getNetState v = .connected ∨
      (c.finishVapActivate v o .ok).1.getNetState v = .halted := by
  have up : (c.tick (o.hw .finish)).getNetState v = .connected ∨
      (c.tick (o.hw .finish)).getNetState v = .halted := by
    obtain same | halted := c.getNetState_tick (o.hw .finish) v
    · rwa [same]
    · exact .inr halted
  simpa [finishVapActivate] using up

theorem connected_or_halted (activating : c.net v = .activating) (stays : Bool) :
    ((c.tick stays).setNetState v .connected).1.getNetState v = .connected ∨
      ((c.tick stays).setNetState v .connected).1.getNetState v = .halted := by
  cases hw : (c.tick stays).hwReady with
  | true =>
    have mem : (c.tick stays).net v ∈ allowed .connected := by
      simp [tick, allowed, activating]
    simp [setNetState, getNetState, hw, mem]
  | false => simp [setNetState, getNetState, hw]

/-- The firmware has activated the VAP: the core is connected, or halted for want of a watchdog. -/
theorem activated {d : Vaps V} (master : V) (o : Activation V)
    (activating : Only v c (d.setNetState v .activating).1)
    (set : (d.setNetState v .activating).2 = .ok) :
    let c₁ := (((d.setNetState v .activating).1.tick (o.hw .connected)).setNetState v .connected).1
    let r := if v = master ∧ o.watchdog ≠ .ok then ((c₁.setNetState v .halted).1, o.watchdog)
      else c₁.finishVapActivate v o .ok
    Only v c r.1 ∧ (r.2 ≠ .ok → r.1.getNetState v ≠ .connected) ∧
      (r.2 = .ok → r.1.getNetState v = .connected ∨ r.1.getNetState v = .halted) := by
  intro c₁ r
  have net : (d.setNetState v .activating).1.net v = .activating := by
    rw [setNetState_ok set]
    exact Function.update_self v _ _
  have up := connected_or_halted net (o.hw .connected)
  have only : Only v c c₁ :=
    (activating.trans (tick_only v _ (o.hw .connected))).trans (setNetState_only _ v .connected)
  unfold r
  split
  case isTrue err =>
    refine ⟨only.trans (setNetState_only _ v .halted), fun _ => ?_, fun ok => absurd ok err.2⟩
    rw [setNetState_halted]
    exact nofun
  case isFalse =>
    refine ⟨only.trans (finishVapActivate_only _ v o .ok), fun err => ?_,
      fun _ => finishVapActivate_up up⟩
    exact absurd (finishVapActivate_err _ v o .ok) err

/-- `mtlk_mbss_send_vap_activate` leaves the core connected only if it says so. -/
theorem mbssSendVapActivate_spec (master : V) (o : Activation V)
    (down : c.getNetState v ≠ .connected) :
    Only v c (c.mbssSendVapActivate master v o).1 ∧
      ((c.mbssSendVapActivate master v o).2 ≠ .ok →
        (c.mbssSendVapActivate master v o).1.getNetState v ≠ .connected) ∧
      ((c.mbssSendVapActivate master v o).2 = .ok →
        (c.mbssSendVapActivate master v o).1.getNetState v = .connected ∨
          (c.mbssSendVapActivate master v o).1.getNetState v = .halted) := by
  have ticked := tick_only v c (o.hw .activating)
  have activating := ticked.trans (setNetState_only (c.tick (o.hw .activating)) v .activating)
  have still : ((c.tick (o.hw .activating)).setNetState v .activating).1.getNetState v ≠
      .connected := setNetState_ne nofun (tick_ne down)
  have failed : ∀ (d : Vaps V) (result : Err), Only v c d → d.getNetState v ≠ .connected →
      result ≠ .ok → Only v c (d.finishVapActivate v o result).1 ∧
        ((d.finishVapActivate v o result).2 ≠ .ok →
          (d.finishVapActivate v o result).1.getNetState v ≠ .connected) ∧
        ((d.finishVapActivate v o result).2 = .ok →
          (d.finishVapActivate v o result).1.getNetState v = .connected ∨
            (d.finishVapActivate v o result).1.getNetState v = .halted) := by
    intro d result only ne err
    refine ⟨only.trans (finishVapActivate_only d v o result),
      fun _ => finishVapActivate_ne ne result, fun ok => ?_⟩
    rw [finishVapActivate_err] at ok
    exact absurd ok err
  unfold mbssSendVapActivate
  split
  case isTrue err => exact ⟨.refl v c, fun _ => down, fun ok => absurd ok err⟩
  case isFalse =>
    split
    case isTrue err => exact failed c _ (.refl v c) down err
    case isFalse =>
      split
      case isTrue => exact failed c _ (.refl v c) down nofun
      case isFalse =>
        dsimp only
        split
        case isTrue => exact failed _ _ activating still nofun
        case isFalse set =>
          split
          case isTrue err => exact failed _ _ activating still err
          case isFalse =>
            split
            case isTrue => exact failed _ _ activating still nofun
            case isFalse => exact activated master o activating (not_not.1 set)

omit [DecidableEq V] in
/-- The channel selection concerns `aocs_started` alone. -/
theorem mbssPreactivateIfNeeded_spec (c : Vaps V) (o : Activation V) :
    ∃ aocsStarted, (c.mbssPreactivateIfNeeded o).1 = { c with aocsStarted } := by
  unfold mbssPreactivateIfNeeded mbssPreactivate
  split
  case isTrue =>
    dsimp only
    split
    · exact ⟨c.aocsStarted, rfl⟩
    · refine ⟨true, ?_⟩
      split
      · rfl
      · split
        · rfl
        · split
          · rfl
          · split <;> rfl
  case isFalse => exact ⟨c.aocsStarted, rfl⟩

omit [DecidableEq V] in
theorem undoMbssInit_spec (c : Vaps V) (v : V) : Apart v c c.undoMbssInit ∧
    c.undoMbssInit.getNetState v = c.getNetState v ∧
      (c.undoMbssInit.aocsStarted → c.activatedVapsNum ≠ 0) := by
  unfold undoMbssInit
  split
  case isTrue => exact ⟨⟨fun _ _ => .inl rfl, rfl, rfl⟩, rfl, nofun⟩
  case isFalse busy => exact ⟨⟨fun _ _ => .inl rfl, rfl, rfl⟩, rfl, fun _ => busy⟩

/-- `mtlk_mbss_init` undoes what it did when it fails. -/
theorem mbssInit_spec (master : V) (o : Activation V) (down : c.getNetState v ≠ .connected)
    (aocs : c.aocsStarted → c.activatedVapsNum ≠ 0) :
    Apart v c (c.mbssInit master v o).1 ∧
      ((c.mbssInit master v o).2 ≠ .ok → (c.mbssInit master v o).1.getNetState v ≠ .connected ∧
        ((c.mbssInit master v o).1.aocsStarted → c.activatedVapsNum ≠ 0)) ∧
      ((c.mbssInit master v o).2 = .ok →
        (c.mbssInit master v o).1.getNetState v = .connected ∨
          (c.mbssInit master v o).1.getNetState v = .halted) := by
  have undone : ∀ d : Vaps V, Apart v c d → d.getNetState v ≠ .connected →
      Apart v c d.undoMbssInit ∧ d.undoMbssInit.getNetState v ≠ .connected ∧
        (d.undoMbssInit.aocsStarted → c.activatedVapsNum ≠ 0) := by
    intro d apart ne
    obtain ⟨same, net, started⟩ := d.undoMbssInit_spec v
    exact ⟨apart.trans same, by rwa [net], fun set => apart.num ▸ started set⟩
  unfold mbssInit
  split
  case isTrue => exact ⟨⟨fun _ _ => .inl rfl, rfl, rfl⟩, fun _ => ⟨down, aocs⟩, nofun⟩
  case isFalse =>
    obtain ⟨aocsStarted, eq⟩ := c.mbssPreactivateIfNeeded_spec o
    dsimp only
    rw [eq]
    have apart : Apart v c { c with aocsStarted } := ⟨fun _ _ => .inl rfl, rfl, rfl⟩
    split
    case isTrue err =>
      obtain ⟨same, ne, started⟩ := undone _ apart down
      exact ⟨same, fun _ => ⟨ne, started⟩, fun ok => absurd ok err⟩
    case isFalse =>
      obtain ⟨only, failed, up⟩ :=
        mbssSendVapActivate_spec (c := { c with aocsStarted }) master o down
      have sent := apart.trans only.toApart
      split
      case isTrue err =>
        obtain ⟨same, ne, started⟩ := undone _ sent (failed err)
        exact ⟨same, fun _ => ⟨ne, started⟩, fun ok => absurd ok err⟩
      case isFalse ok => exact ⟨sent, fun err => absurd rfl err, fun _ => up (not_not.1 ok)⟩

end Activate

/-! ## Deactivation -/

theorem cleanupOnDisconnect_spec (c : Vaps V) (v : V) (o : Deactivation) :
    Only v c (c.cleanupOnDisconnect v o) ∧
      (c.getNetState v ≠ .connected → (c.cleanupOnDisconnect v o).getNetState v ≠ .connected) := by
  have ticked := tick_only v c (o.hw .cleanup)
  unfold cleanupOnDisconnect
  dsimp only
  split
  · refine ⟨(ticked.trans (tick_only v _ (o.hw .ready))).trans (setNetState_only _ v .ready), ?_⟩
    exact fun ne => setNetState_ne nofun (tick_ne (tick_ne ne))
  · exact ⟨ticked, tick_ne⟩

theorem sendVapDeactivateReqBlocked_spec (c : Vaps V) (v : V) (o : Deactivation) :
    Only v c (c.sendVapDeactivateReqBlocked v o).1 ∧
      ((c.sendVapDeactivateReqBlocked v o).2 = .ok →
        (c.sendVapDeactivateReqBlocked v o).1.getNetState v ≠ .connected) := by
  have ticked := tick_only v c (o.hw .deactivate)
  unfold sendVapDeactivateReqBlocked
  dsimp only
  split
  case isTrue halted =>
    refine ⟨ticked, fun _ => ?_⟩
    rw [halted]
    exact nofun
  case isFalse =>
    have only := (ticked.trans (tick_only v _ (o.hw .disconnecting))).trans
      (setNetState_only _ v .disconnecting)
    split
    case isTrue err => exact ⟨only, fun ok => absurd ok err⟩
    case isFalse set =>
      have ne : (((c.tick (o.hw .deactivate)).tick (o.hw .disconnecting)).setNetState v
          .disconnecting).1.getNetState v ≠ .connected := by
        rw [setNetState_ok (not_not.1 set)]
        unfold getNetState
        split
        · simp
        · exact nofun
      split
      · exact ⟨only, fun _ => ne⟩
      · split
        · exact ⟨only, fun _ => ne⟩
        · split <;> exact ⟨only, fun _ => ne⟩

/-- `_mtlk_mbss_deactivate_vap` never leaves the core connected. -/
theorem mbssDeactivateVap_spec (c : Vaps V) (v : V) (o : Deactivation) :
    Only v c (c.mbssDeactivateVap v o).1 ∧
      (c.mbssDeactivateVap v o).1.getNetState v ≠ .connected := by
  obtain ⟨sent, ok⟩ := c.sendVapDeactivateReqBlocked_spec v o
  unfold mbssDeactivateVap
  dsimp only
  split
  case isTrue =>
    have halted := setNetState_halted (c.sendVapDeactivateReqBlocked v o).1 v
    obtain ⟨cleaned, ne⟩ := cleanupOnDisconnect_spec
      ((c.sendVapDeactivateReqBlocked v o).1.setNetState v .halted).1 v o
    refine ⟨(sent.trans (setNetState_only _ v .halted)).trans cleaned, ne ?_⟩
    rw [halted]
    exact nofun
  case isFalse fine =>
    obtain ⟨cleaned, ne⟩ := cleanupOnDisconnect_spec (c.sendVapDeactivateReqBlocked v o).1 v o
    exact ⟨sent.trans cleaned, ne (ok (not_not.1 fun err => fine (.inl err)))⟩

/-! ## Every run -/

variable [Fintype V]

/-- The count of active VAPs, what is stopped, the network states and `aocs_started` agree. -/
structure Booked (c : Vaps V) : Prop where
  num : c.activatedVapsNum = (Finset.univ.filter fun v => c.isStopped v = false).card
  stopped : ∀ v, c.isStopped v → c.getNetState v ≠ .connected
  active : ∀ v, c.isStopped v = false →
    c.getNetState v = .connected ∨ c.getNetState v = .halted
  aocs : c.aocsStarted → c.activatedVapsNum ≠ 0

omit [DecidableEq V] in
theorem Booked.init : Booked (init : Vaps V) where
  num := by simp [Vaps.init]
  stopped := by simp [Vaps.init, getNetState]
  active := nofun
  aocs := nofun

omit [DecidableEq V] in
/-- The other cores fit as before, or are halted. -/
theorem Booked.stopped_other (h : Booked c) (apart : Apart v c c') {w : V} (ne : w ≠ v)
    (set : c.isStopped w) : c'.getNetState w ≠ .connected := by
  obtain same | halted := apart.others w ne
  · rw [same]
    exact h.stopped w set
  · rw [halted]
    exact nofun

omit [DecidableEq V] in
theorem Booked.active_other (h : Booked c) (apart : Apart v c c') {w : V} (ne : w ≠ v)
    (unset : c.isStopped w = false) :
    c'.getNetState w = .connected ∨ c'.getNetState w = .halted := by
  obtain same | halted := apart.others w ne
  · rw [same]
    exact h.active w unset
  · exact .inr halted

/-- One core goes to a state that fits it, or to halted as well as others do. -/
theorem Booked.apart (h : Booked c) (apart : Apart v c c')
    (stopped : c.isStopped v → c'.getNetState v ≠ .connected)
    (active : c.isStopped v = false →
      c'.getNetState v = .connected ∨ c'.getNetState v = .halted)
    (aocs : c'.aocsStarted → c.activatedVapsNum ≠ 0) : Booked c' where
  num := by
    rw [apart.num, apart.isStopped]
    exact h.num
  stopped := by
    intro w set
    rw [apart.isStopped] at set
    by_cases e : w = v
    · exact e ▸ stopped (e ▸ set)
    · exact h.stopped_other apart e set
  active := by
    intro w unset
    rw [apart.isStopped] at unset
    by_cases e : w = v
    · exact e ▸ active (e ▸ unset)
    · exact h.active_other apart e unset
  aocs := by
    rw [apart.num]
    exact aocs

omit [DecidableEq V] in
theorem Booked.tick (h : Booked c) (stays : Bool) : Booked (c.tick stays) where
  num := h.num
  stopped := fun v set => tick_ne (h.stopped v set)
  active := by
    intro v unset
    obtain same | halted := c.getNetState_tick stays v
    · rw [same]
      exact h.active v unset
    · exact .inr halted
  aocs := h.aocs

theorem Booked.notifyVapActivated (h : Booked c) (was : c.isStopped v) {d : Vaps V}
    (apart : Apart v c d) (up : d.getNetState v = .connected ∨ d.getNetState v = .halted) :
    Booked (d.notifyVapActivated v) where
  num := by
    have more : (Finset.univ.filter fun w => Function.update c.isStopped v false w = false).card =
        (Finset.univ.filter fun w => c.isStopped w = false).card + 1 :=
      card_filter_eq_add_one (Finset.mem_univ v) (by simp [was]) fun w => by
        by_cases e : w = v <;> simp [e]
    rw [← h.num, ← apart.num, ← apart.isStopped] at more
    exact more.symm
  stopped := by
    intro w set
    by_cases e : w = v
    · subst e
      simp [Vaps.notifyVapActivated] at set
    · have set' : c.isStopped w := by
        simpa [Vaps.notifyVapActivated, e, apart.isStopped] using set
      exact h.stopped_other apart e set'
  active := by
    intro w unset
    by_cases e : w = v
    · exact e ▸ up
    · have unset' : c.isStopped w = false := by
        simpa [Vaps.notifyVapActivated, e, apart.isStopped] using unset
      exact h.active_other apart e unset'
  aocs := fun _ => Nat.succ_ne_zero _

theorem Booked.notifyVapDeactivated (h : Booked c) (was : c.isStopped v = false) {d : Vaps V}
    (apart : Apart v c d) (down : d.getNetState v ≠ .connected)
    (aocs : d.aocsStarted → c.activatedVapsNum ≠ 1) : Booked (d.notifyVapDeactivated v) where
  num := by
    have more : (Finset.univ.filter fun w => c.isStopped w = false).card =
        (Finset.univ.filter fun w => Function.update c.isStopped v true w = false).card + 1 :=
      card_filter_eq_add_one (Finset.mem_univ v) (by simp) fun w => by
        by_cases e : w = v <;> simp [e, was]
    rw [← h.num] at more
    unfold Vaps.notifyVapDeactivated
    dsimp only
    rw [apart.num, apart.isStopped]
    omega
  stopped := by
    intro w set
    by_cases e : w = v
    · exact e ▸ down
    · have set' : c.isStopped w := by
        simpa [Vaps.notifyVapDeactivated, e, apart.isStopped] using set
      exact h.stopped_other apart e set'
  active := by
    intro w unset
    by_cases e : w = v
    · subst e
      simp [Vaps.notifyVapDeactivated] at unset
    · have unset' : c.isStopped w = false := by
        simpa [Vaps.notifyVapDeactivated, e, apart.isStopped] using unset
      exact h.active_other apart e unset'
  aocs := by
    intro started
    have several := aocs started
    have some : c.activatedVapsNum ≠ 0 := by
      rw [h.num]
      exact Finset.card_ne_zero_of_mem (Finset.mem_filter.2 ⟨Finset.mem_univ v, was⟩)
    unfold Vaps.notifyVapDeactivated
    dsimp only
    rw [apart.num]
    omega

theorem Booked.activate {o : Activation V} (h : Booked c) (was : c.isStopped v)
    (coex : o.coexActive → c.activatedVapsNum = 0 → o.coexStart = .ok) :
    Booked (c.activate master v o).1 := by
  have ticked := h.tick (o.hw .start)
  have stopped : (c.tick (o.hw .start)).isStopped v := was
  have down := ticked.stopped v stopped
  obtain ⟨apart, failed, up⟩ := mbssInit_spec master o down ticked.aocs
  unfold Vaps.activate
  dsimp only
  split
  case isTrue => exact ticked
  case isFalse =>
    split
    case isTrue err =>
      obtain ⟨ne, aocs⟩ := failed err
      exact ticked.apart apart (fun _ => ne)
        (fun unset => absurd (stopped.symm.trans unset) Bool.true_eq_false_eq_False) aocs
    case isFalse ok =>
      rw [if_neg]
      · exact ticked.notifyVapActivated stopped apart (up (not_not.1 ok))
      · rintro ⟨active, idle, err⟩
        exact err (coex active (apart.num.symm.trans idle))

theorem Booked.deactivate {o : Deactivation} (h : Booked c) (was : c.isStopped v = false) :
    Booked (c.deactivate v o).1 := by
  have ticked := h.tick (o.hw .start)
  have unset : (c.tick (o.hw .start)).isStopped v = false := was
  have up := ticked.active v unset
  let d := { c.tick (o.hw .start) with
    isIfaceStopping := Function.update (c.tick (o.hw .start)).isIfaceStopping v true }
  have booked : Booked d := ⟨ticked.num, ticked.stopped, ticked.active, ticked.aocs⟩
  obtain ⟨only, ne⟩ := mbssDeactivateVap_spec d v o
  cases scan : o.scanRunning with
  | true =>
    simp only [Vaps.deactivate, scan, if_true]
    exact booked
  | false =>
    simp only [Vaps.deactivate, scan, Bool.false_eq_true, if_false, if_pos up]
    split
    case isTrue one =>
      have apart : Apart v d (d.mbssDeactivateVap v o).1.undoPreactivate :=
        ⟨only.others, only.isStopped, only.num⟩
      exact booked.notifyVapDeactivated unset apart ne nofun
    case isFalse more =>
      exact booked.notifyVapDeactivated unset only.toApart ne fun _ => only.num ▸ more

/-- An activation that returns an error leaves the core stopped. -/
theorem Booked.activate_stopped {o : Activation V} (h : Booked c) (was : c.isStopped v)
    (err : (c.activate master v o).2 ≠ .ok) : (c.activate master v o).1.isStopped v := by
  have ticked := h.tick (o.hw .start)
  have stopped : (c.tick (o.hw .start)).isStopped v := was
  obtain ⟨apart, -, -⟩ := mbssInit_spec master o (ticked.stopped v stopped) ticked.aocs
  have still : ((c.tick (o.hw .start)).mbssInit master v o).1.isStopped v := by
    rwa [apart.isStopped]
  unfold Vaps.activate at err ⊢
  dsimp only at err ⊢
  split at err
  case isTrue checked => rwa [if_pos checked]
  case isFalse checked =>
    rw [if_neg checked]
    split at err
    case isTrue failed => rwa [if_pos failed]
    case isFalse up =>
      rw [if_neg up]
      split at err
      case isTrue coex => rwa [if_pos coex]
      case isFalse => exact absurd rfl err

theorem Booked.halt (h : Booked c) (v : V) : Booked (c.setNetState v .halted).1 := by
  have only := setNetState_only c v .halted
  have halted := setNetState_halted c v
  apply h.apart only.toApart
  case stopped => exact fun _ connected => nomatch halted.symm.trans connected
  case active => exact fun _ => .inr halted
  case aocs => exact only.aocs ▸ h.aocs

theorem Booked.next (h : Booked c) {label : Label V} (enabled : c.Enabled label)
    (coex : c.CoexStarts label) : Booked (c.step master label) := by
  cases label with
  | activate v o => exact h.activate enabled coex
  | deactivate v o => exact h.deactivate enabled
  | halt v => exact h.halt v
  | hwFails =>
    have failed : c.tick false = c.step master .hwFails := by simp [Vaps.tick, step]
    exact failed ▸ h.tick false

/-- In a run in which no start of 20/40 fails, the count of active VAPs is the number of cores that
are not stopped, AOCS is started only while there is one, and a core that is stopped is not
connected, also when its activation has just returned an error. -/
theorem vaps_booked (run : Runs (step master) (fun c label => c.Enabled label ∧ c.CoexStarts label)
    (init : Vaps V) c) :
    c.activatedVapsNum = (Finset.univ.filter fun v => c.isStopped v = false).card ∧
    (c.aocsStarted → ∃ v, c.isStopped v = false) ∧
    (∀ v, c.isStopped v → c.getNetState v ≠ .connected) ∧
    ∀ v o, c.isStopped v → c.CoexStarts (.activate v o) → (c.activate master v o).2 ≠ .ok →
      (c.activate master v o).1.getNetState v ≠ .connected := by
  have booked : Booked c :=
    Runs.invariant run .init fun _ _ h ok => h.next ok.1 ok.2
  refine ⟨booked.num, ?_, booked.stopped, ?_⟩
  case refine_1 =>
    intro started
    have some := booked.aocs started
    rw [booked.num] at some
    obtain ⟨v, mem⟩ := Finset.card_ne_zero.1 some
    exact ⟨v, (Finset.mem_filter.1 mem).2⟩
  case refine_2 =>
    intro v o was coex err
    exact (booked.activate was coex).stopped v (booked.activate_stopped was err)

/-- The second VAP is not activated by the firmware, and the first one cannot be deactivated. -/
theorem vaps_booked_failures :
    let closing : Deactivation := ⟨false, .ok, .timeout, true, .ok, false, fun _ => true⟩
    let c := [Label.activate 0 .fine, .activate 1 { Activation.fine with activateReq := .timeout },
      .deactivate 0 closing].foldl (step 0) (init : Vaps (Fin 2))
    c.activatedVapsNum = 0 ∧ c.aocsStarted = false ∧ c.net 0 = .halted ∧
      c.getNetState 1 ≠ .connected := by
  intro closing c
  have booked := vaps_booked (c := c) (Runs.of_allowed (by decide))
  exact ⟨by decide, by decide, by decide, booked.2.2.1 1 (by decide)⟩

/-- The start of 20/40 fails for the first VAP: its activation returns the error, its core stays
connected, and AOCS stays started without any active VAP. -/
theorem coex_failure_not_undone :
    ¬ ∀ c : Vaps (Fin 1), Runs (step 0) Enabled init c → ∀ v o, c.isStopped v →
      (c.activate 0 v o).2 ≠ .ok → (c.activate 0 v o).1.getNetState v ≠ .connected ∧
        ((c.activate 0 v o).1.aocsStarted → ∃ w, (c.activate 0 v o).1.isStopped w = false) := by
  intro claim
  have undone := claim init .start 0 { Activation.fine with coexStart := .timeout } rfl (by decide)
  exact undone.1 (by decide)

end Wave300.Core.Vaps
