import Wave300.Wds.Reactions

/-!
# The references of WDS peers to their stations

A peer has one reference to its station while it has one, and none otherwise.
-/

namespace Wave300.Wds

open Lib Managers

section Machine
variable {V A S : Type} [DecidableEq V] [DecidableEq A] [DecidableEq S]
  {s s' : Managers V A S} {v w : V} {p p' q : Peer A S} {a b : A} {skip : V → A → Prop}
  {held : A → List S}

/-- The references that were taken and not dropped are those of the peers that there are. Nothing is
said of those that are skipped. -/
structure Balanced (skip : V → A → Prop) (s : Managers V A S) : Prop where
  one : ∀ v, ∀ p ∈ (s.vap v).peersList, ¬ skip v p.addr → (s.vap v).held p.addr = p.sta.toList
  none : ∀ v a, a ∉ s.addrs v → ¬ skip v a → (s.vap v).held a = []

omit [DecidableEq V] in
theorem decref_self (held' : held p.addr = p.sta.toList) : decref held p p.addr = [] := by
  unfold decref
  cases sta : p.sta with
  | none => simpa [sta] using held'
  | some σ => simp [held', sta]

omit [DecidableEq V] in
theorem decref_of_ne (other : a ≠ p.addr) : decref held p a = held a := by
  unfold decref
  cases p.sta with
  | none => rfl
  | some σ => exact Function.update_of_ne other _ _

omit [DecidableEq V] in
/-- Dropping the references of all peers of a list leaves none. -/
theorem foldl_decref {l : List (Peer A S)} (distinct : (l.map Peer.addr).Nodup)
    (one : ∀ p ∈ l, held p.addr = p.sta.toList) (a : A) :
    l.foldl decref held a = if a ∈ l.map Peer.addr then [] else held a := by
  induction l generalizing held with
  | nil => rfl
  | cons p l ih =>
    obtain ⟨absent, distinct⟩ := List.nodup_cons.1 distinct
    have others : ∀ q ∈ l, decref held p q.addr = q.sta.toList := by
      intro q mem
      have ne : q.addr ≠ p.addr := fun same => absent (same ▸ List.mem_map_of_mem mem)
      rw [decref_of_ne ne]
      exact one q (List.mem_cons_of_mem p mem)
    rw [List.foldl_cons, ih distinct others]
    by_cases here : a = p.addr
    · subst here
      rw [decref_self (one p List.mem_cons_self), ite_self]
      simp
    · rw [decref_of_ne here]
      simp [here]

omit [DecidableEq V] [DecidableEq S] in
/-- What is held for a peer is at most one reference. -/
theorem Balanced.length_le (h : Balanced NoPeer s) (v : V) (a : A) :
    ((s.vap v).held a).length ≤ 1 := by
  by_cases there : a ∈ s.addrs v
  · obtain ⟨p, mem, rfl⟩ := List.mem_map.1 there
    rw [h.one v p mem id]
    cases p.sta <;> simp
  · simp [h.none v a there id]

omit [DecidableEq S] in
theorem Balanced.put (h : Balanced (Only v p.addr) s) (there : p.addr ∈ s.addrs v)
    (here : (s.vap v).held p.addr = p.sta.toList) : Balanced NoPeer (s.put v p) := by
  have held : ∀ w, ((s.put v p).vap w).held = (s.vap w).held := fun w => read_setVap Vap.held rfl
  constructor
  case one =>
    intro w q mem _
    rw [held]
    obtain ⟨rfl, rfl⟩ | ⟨mem, other⟩ := mem_put mem
    · exact here
    · exact h.one w q mem fun ⟨same, addr⟩ => other same addr
  case none =>
    intro w b absent _
    rw [addrs_put] at absent
    rw [held]
    refine h.none w b absent ?_
    rintro ⟨rfl, rfl⟩
    exact absent there

theorem Balanced.remove (h : Balanced (Only v p.addr) s)
    (here : (s.vap v).held p.addr = p.sta.toList) : Balanced NoPeer (peerRemoveDelete v p s) := by
  have held : ∀ w a, (w = v → a ≠ p.addr) →
      ((peerRemoveDelete v p s).vap w).held a = (s.vap w).held a := by
    intro w a other
    by_cases same : w = v
    · subst same
      simpa [peerRemoveDelete] using decref_of_ne (other rfl)
    · simp [peerRemoveDelete, same]
  constructor
  case one =>
    intro w q mem _
    obtain ⟨mem, other⟩ := mem_peerRemoveDelete.1 mem
    rw [held w q.addr other]
    exact h.one w q mem fun both => other both.1 both.2
  case none =>
    intro w a absent _
    by_cases removed : w = v ∧ a = p.addr
    · obtain ⟨rfl, rfl⟩ := removed
      simpa [peerRemoveDelete] using decref_self here
    · have other : w = v → a ≠ p.addr := fun same addr => removed ⟨same, addr⟩
      rw [held w a other]
      refine h.none w a (fun there => absent ?_) removed
      obtain ⟨q, mem, rfl⟩ := List.mem_map.1 there
      exact List.mem_map_of_mem (mem_peerRemoveDelete.2 ⟨mem, other⟩)

theorem Balanced.fsm {action : Action} (h : Balanced (Only v p.addr) s)
    (there : p.addr ∈ s.addrs v) (here : (s.vap v).held p.addr = p.sta.toList) :
    Balanced NoPeer (peerFsm v p action s) := by
  unfold peerFsm
  split
  · exact h.remove here
  next p' next' =>
    obtain ⟨same, -⟩ := peerNext_some next'
    have addr : p'.addr = p.addr := by rw [same]
    have sta : p'.sta = p.sta := by rw [same]
    have stays := Balanced.put (p := p') (addr ▸ h) (addr ▸ there) (by rw [addr, sta, here])
    exact ⟨stays.one, stays.none⟩

/-- A peer is told of a station only when it has none, and the manager is cleaned up only when no
peer has one. -/
def Careful (s : Managers V A S) : Step V A S → Prop
  | .connectInd v a (some _) _ => (s.vap v).bridgeWds → ∀ p ∈ s.find v a, p.sta = none
  | .cleanup v => ∀ p ∈ (s.vap v).peersList, p.sta = none
  | _ => True

omit [DecidableEq V] [DecidableEq A] [DecidableEq S] in
theorem Balanced.mono (h : Balanced skip s) (vap : ∀ w, (s'.vap w).peersList = (s.vap w).peersList)
    (held : ∀ w a, ¬ skip w a → (s'.vap w).held a = (s.vap w).held a) : Balanced skip s' where
  one w q mem other := by
    rw [held w _ other]
    exact h.one w q (vap w ▸ mem) other
  none w a absent other := by
    rw [held w a other]
    exact h.none w a (by rwa [addrs, ← vap w]) other

omit [DecidableEq V] [DecidableEq A] [DecidableEq S] in
theorem Balanced.weaken (h : Balanced NoPeer s) : Balanced skip s where
  one w q mem _ := h.one w q mem id
  none w a absent _ := h.none w a absent id

omit [DecidableEq S] in
/-- The peer that was found changes, and its references stay. -/
theorem Balanced.stays (h : Balanced NoPeer s) (there : p ∈ (s.vap v).peersList)
    (addr : p'.addr = p.addr) (sta : p'.sta = p.sta) : Balanced NoPeer (s.put v p') := by
  refine Balanced.put h.weaken (addr ▸ List.mem_map_of_mem there) ?_
  rw [addr, sta]
  exact h.one v p there id

theorem Balanced.moves {action : Action} (h : Balanced NoPeer s)
    (there : p ∈ (s.vap v).peersList) (addr : p'.addr = p.addr) (sta : p'.sta = p.sta) :
    Balanced NoPeer (peerFsm v p' action s) := by
  refine Balanced.fsm h.weaken (addr ▸ List.mem_map_of_mem there) ?_
  rw [addr, sta]
  exact h.one v p there id

omit [DecidableEq A] [DecidableEq S] in
/-- The references for one peer change. -/
theorem Balanced.setHeld (h : Balanced NoPeer s) (other : ∀ b, b ≠ a → held b = (s.vap v).held b) :
    Balanced (Only v a) (s.setHeld v held) := by
  refine h.weaken.mono (fun w => peersList_setHeld held) fun w b ne => ?_
  by_cases here : w = v
  · subst here
    simpa [Managers.setHeld] using other b fun same => ne ⟨rfl, same⟩
  · simp [Managers.setHeld, here]

omit [DecidableEq S] in
theorem balanced_usrAdd (h : Balanced NoPeer s) (o : Adding) :
    Balanced NoPeer (usrAddPeerAp v a o s).1 := by
  obtain ⟨res, -, same⟩ | ⟨absent, same⟩ := usrAddPeerAp_cases s v a o
  · rwa [same]
  have held : ∀ w, ((s.push v (peerInit a)).vap w).held = (s.vap w).held :=
    fun w => read_setVap Vap.held rfl
  have added : Balanced NoPeer (s.push v (peerInit a)) := by
    constructor
    case one =>
      intro w q mem _
      rw [held]
      obtain ⟨rfl, rfl⟩ | mem := mem_push mem
      · exact h.none w a absent id
      · exact h.one w q mem id
    case none =>
      intro w b gone _
      rw [held]
      refine h.none w b (fun there => gone ?_) id
      by_cases here : w = v
      · subst here
        simpa [push, addrs] using .inr (by simpa [addrs] using there)
      · simpa [push, addrs, here] using there
  rw [same]
  dsimp only
  split
  · exact ⟨added.one, added.none⟩
  · exact added

theorem balanced_usrDel (h : Balanced NoPeer s) (send : Send) :
    Balanced NoPeer (usrDelPeerAp v a send s).1 := by
  cases found : s.find v a with
  | none => rwa [usrDelPeerAp, found]
  | some p =>
    obtain ⟨there, rfl⟩ := findKey_some found
    rw [usrDelPeerAp_found found]
    have asked' : Balanced NoPeer (s.note (asked v p send)) := ⟨h.one, h.none⟩
    dsimp only
    split
    · exact asked'.moves there rfl rfl
    · exact asked'.stays there rfl rfl

theorem balanced_beaconTask (h : Balanced NoPeer s) (b : OnBeacon A V) (send : Send) :
    Balanced NoPeer (onBeaconProc b send s) := by
  obtain ⟨-, same⟩ | ⟨p, found, same⟩ := onBeaconProc_cases b send s
  · rwa [same]
  · rw [same]
    have kept : Balanced NoPeer (s.note (sent b.vapId b.addr true send)) := ⟨h.one, h.none⟩
    refine kept.moves (findKey_some found).1 ?_ ?_
    · rw [sendFwCfgPeerAp_fst]
    · rw [sendFwCfgPeerAp_fst]

theorem balanced_connectInd (h : Balanced NoPeer s) {sta : Option S} (send : Send)
    (careful : sta.isSome → ∀ p ∈ s.find v a, p.sta = none) :
    Balanced NoPeer (peerConnect v a sta send s) := by
  rw [peerConnect]
  cases found : s.find v a with
  | none => exact h
  | some p =>
    obtain ⟨there, rfl⟩ := findKey_some found
    cases sta with
    | some sta =>
      have before : (s.vap v).held p.addr = [] := by
        rw [h.one v p there id, careful rfl p found]
        rfl
      have taken : Balanced (Only v p.addr) (s.incref v p.addr sta) :=
        h.setHeld fun b other => Function.update_of_ne other _ _
      refine Balanced.fsm (p := { p with sta := some sta }) taken ?_ ?_
      · rw [addrs, incref, peersList_setHeld]
        exact List.mem_map.2 ⟨p, there, rfl⟩
      · simp [incref, setHeld, before]
    | none =>
      have kept : Balanced NoPeer (s.note (sent v p.addr false send)) := ⟨h.one, h.none⟩
      refine kept.moves there ?_ ?_
      · rw [sendFwCfgPeerAp_fst]
      · rw [sendFwCfgPeerAp_fst]

theorem balanced_disconnectInd (h : Balanced NoPeer s) (send : Send) :
    Balanced NoPeer (peerDisconnect v a send s).1 := by
  cases found : s.find v a with
  | none => rwa [peerDisconnect, found]
  | some p =>
    obtain ⟨there, rfl⟩ := findKey_some found
    rw [peerDisconnect_found found]
    have dropped : Balanced (Only v p.addr)
        ((s.setHeld v (decref (s.vap v).held p)).note (asked v p send)) := by
      have kept := h.setHeld (v := v) fun b (other : b ≠ p.addr) => decref_of_ne other
      exact ⟨kept.one, kept.none⟩
    have mem : p.addr ∈ (s.setHeld v (decref (s.vap v).held p)).addrs v := by
      rw [addrs, peersList_setHeld]
      exact List.mem_map_of_mem there
    have none : ((s.setHeld v (decref (s.vap v).held p)).vap v).held p.addr = [] := by
      simpa [setHeld] using decref_self (h.one v p there id)
    dsimp only
    split
    · exact Balanced.fsm (p := { p with sta := .none, fwPeerStaAdded := false }) dropped mem none
    · exact Balanced.put (p := { p with sta := .none }) dropped mem none

theorem balanced_timerTask (h : Balanced NoPeer s) (send : Send) (alloc : Bool) :
    Balanced NoPeer (peerFsmTimer v a send alloc s) := by
  have listed : Balanced NoPeer (onBeaconCreateAdd v a alloc s).1 := by
    unfold onBeaconCreateAdd
    split
    · exact ⟨h.one, h.none⟩
    · exact h
  rw [peerFsmTimer]
  cases found : s.find v a with
  | none => exact h
  | some p =>
    obtain ⟨there, rfl⟩ := findKey_some found
    dsimp only
    split
    · have kept : Balanced NoPeer (s.note (sent v p.addr false send)) := ⟨h.one, h.none⟩
      refine kept.moves there ?_ ?_
      · rw [sendFwCfgPeerAp_fst]
      · rw [sendFwCfgPeerAp_fst]
    · exact h.moves there rfl rfl
    · exact listed
    · exact listed
    · exact h

omit [DecidableEq V] [DecidableEq A] [DecidableEq S] in
/-- Without a change of the peers and the references. -/
theorem Balanced.same (h : Balanced skip s) (vap : s'.vap = s.vap) : Balanced skip s' :=
  h.mono (fun _ => by rw [vap]) fun _ _ _ => by rw [vap]

omit [DecidableEq A] [DecidableEq S] in
theorem Balanced.switch (h : Balanced NoPeer s) {x : Vap A S}
    (peers : x.peersList = (s.vap v).peersList) (held : x.held = (s.vap v).held) :
    Balanced NoPeer (s.setVap v x) :=
  h.mono (fun _ => read_setVap Vap.peersList peers) fun _ _ _ => by
    rw [read_setVap Vap.held held]

theorem balanced_onIfDown (h : Balanced NoPeer s) (tidy : s.Tidy) :
    Balanced NoPeer (onIfDown v s) := by
  have dropped := foldl_decref (tidy v).distinct fun p mem => h.one v p mem id
  constructor
  case one =>
    intro w q mem _
    by_cases here : w = v
    · subst here
      obtain ⟨p, there, rfl⟩ : ∃ p ∈ (s.vap w).peersList, _ = q := by
        simpa [onIfDown] using mem
      simp [onIfDown, dropped, List.mem_map_of_mem there]
    · simp only [onIfDown, setVap_vap, Function.update_of_ne here] at mem ⊢
      exact h.one w q mem id
  case none =>
    intro w a absent _
    by_cases here : w = v
    · subst here
      have gone : a ∉ s.addrs w := by simpa [onIfDown, addrs] using absent
      have none := h.none w a gone id
      simp only [onIfDown, setVap_vap, Function.update_self, dropped, none, ite_self]
    · simp only [onIfDown, setVap_vap, Function.update_of_ne here, addrs] at absent ⊢
      exact h.none w a absent id

omit [DecidableEq A] [DecidableEq S] in
/-- All peers of a VAP go, and no reference is held for them. -/
theorem Balanced.clear (h : Balanced NoPeer s) {x : Vap A S} (peers : x.peersList = [])
    (held : x.held = (s.vap v).held) (sta : ∀ p ∈ (s.vap v).peersList, p.sta = .none) :
    Balanced NoPeer (s.setVap v x) := by
  constructor
  case one =>
    intro w q mem _
    by_cases here : w = v
    · subst here
      simp [peers] at mem
    · simp only [setVap_vap, Function.update_of_ne here] at mem ⊢
      exact h.one w q mem id
  case none =>
    intro w a absent _
    by_cases here : w = v
    · subst here
      rw [setVap_vap, Function.update_self, held]
      by_cases there : a ∈ s.addrs w
      · obtain ⟨p, mem, rfl⟩ := List.mem_map.1 there
        rw [h.one w p mem id, sta p mem]
        rfl
      · exact h.none w a there id
    · simp only [setVap_vap, Function.update_of_ne here, addrs] at absent ⊢
      exact h.none w a absent id

theorem balanced_step (h : Balanced NoPeer s) (tidy : s.Tidy) {i : Step V A S}
    (enabled : s.Enabled i) (careful : Careful s i) : Balanced NoPeer (s.step i) := by
  cases i with
  | usrAdd v a o => exact (balanced_usrAdd h o).same rfl
  | usrDel v a send => exact (balanced_usrDel h send).same rfl
  | beacon a scheduled => exact h.same rfl
  | beaconTask b send =>
    apply balanced_beaconTask
    exact h.same rfl
  | connectInd v a sta send =>
    rw [Managers.step]
    split
    next bridge =>
      refine balanced_connectInd h send fun some => ?_
      obtain ⟨σ, rfl⟩ := Option.isSome_iff_exists.1 some
      exact careful bridge
    · exact h
  | disconnectInd v a send =>
    rw [Managers.step]
    split
    · exact balanced_disconnectInd h send
    · exact h
  | timer v a scheduled =>
    rw [Managers.step]
    split
    · exact h
    next p found =>
      have stayed : Balanced NoPeer (s.put v { p with fsmTimer := false }) :=
        h.stays (findKey_some found).1 rfl rfl
      exact stayed.same rfl
  | timerTask v a send alloc =>
    apply balanced_timerTask
    exact h.same rfl
  | activate v alloc =>
    have kept : Balanced NoPeer (s.setVap v { s.vap v with connected := true }) := h.switch rfl rfl
    rw [Managers.step]
    dsimp only
    split
    · rw [onIfUp_eq]
      exact kept.same rfl
    · exact kept
  | deactivate v refused =>
    have down : Balanced NoPeer (if (s.vap v).bridgeWds then onIfDown v s else s) := by
      split
      · exact balanced_onIfDown h tidy
      · exact h
    rw [Managers.step]
    dsimp only
    split
    · exact down.switch rfl rfl
    · exact down.switch rfl rfl
  | isolate v => exact (balanced_onIfDown h tidy).switch rfl rfl
  | halt v => exact h.switch rfl rfl
  | setBridge v wds => exact h.switch rfl rfl
  | cleanup v =>
    have gone : Balanced NoPeer (s.setVap v { s.vap v with present := false, peersList := [] }) :=
      h.clear rfl rfl careful
    exact gone.same rfl
  | init v =>
    refine h.clear (v := v) rfl rfl fun p mem => ?_
    rw [(tidy v).absent enabled] at mem
    exact absurd mem List.not_mem_nil

omit [DecidableEq V] [DecidableEq A] [DecidableEq S] in
theorem balanced_start : Balanced NoPeer (start : Managers V A S) :=
  ⟨fun _ _ mem => absurd mem List.not_mem_nil, fun _ _ _ _ => rfl⟩

theorem held_peerFsm {action : Action} (ne : action ≠ .disconnect) :
    ((peerFsm v p action s).vap w).held = (s.vap w).held := by
  unfold peerFsm
  split
  next gone => exact absurd (peerNext_none gone).2.1 ne
  · exact read_setVap Vap.held rfl

/-- A step that is not careful leaves a reference behind. -/
theorem careful_of_balanced {i : Step V A S} (h : Balanced NoPeer s)
    (after : Balanced NoPeer (s.step i)) : Careful s i := by
  cases i with
  | connectInd v a sta send =>
    cases sta with
    | none => trivial
    | some sta =>
      intro bridge p found
      obtain ⟨there, rfl⟩ := findKey_some found
      have held : ((s.step (.connectInd v p.addr (some sta) send)).vap v).held p.addr =
          sta :: p.sta.toList := by
        rw [Managers.step, if_pos bridge, peerConnect, show s.find v p.addr = some p from found]
        dsimp only
        rw [held_peerFsm (by decide), ← h.one v p there id]
        simp [incref, setHeld]
      have bound := after.length_le v p.addr
      rw [held] at bound
      cases state : p.sta with
      | none => rfl
      | some τ => simp [state] at bound
  | cleanup v =>
    intro p there
    have none := after.none v p.addr (by simp [Managers.step, Wds.cleanup, addrs]) id
    have held : ((s.step (.cleanup v)).vap v).held p.addr = p.sta.toList := by
      rw [← h.one v p there id]
      simp [Managers.step, Wds.cleanup]
    rw [held] at none
    simpa using none
  | _ => trivial

/-- The references are those of the peers, in every run in which a peer is told of a station only
when it has none, and the manager is cleaned up only when no peer has one. Any other step leaves a
reference behind. -/
theorem references_balanced (run : RunsIf Careful s) : Balanced NoPeer s ∧
    ∀ i, s.Enabled i → (Balanced NoPeer (s.step i) ↔ Careful s i) := by
  obtain ⟨balanced, tidy⟩ := Runs.invariant (P := fun s => Balanced NoPeer s ∧ s.Tidy) run
    ⟨balanced_start, tidy_start⟩ fun s i h allowed =>
      ⟨balanced_step h.1 h.2 allowed.1 allowed.2, tidy_step h.2 allowed.1⟩
  exact ⟨balanced, fun i enabled =>
    ⟨careful_of_balanced balanced, balanced_step balanced tidy enabled⟩⟩

instance (s : Managers V A S) : DecidablePred (Careful s)
  | .connectInd v a (some _) _ =>
    inferInstanceAs (Decidable (_ → ∀ p ∈ s.find v a, p.sta = none))
  | .cleanup v => inferInstanceAs (Decidable (∀ p ∈ (s.vap v).peersList, p.sta = none))
  | .connectInd _ _ none _ | .usrAdd .. | .usrDel .. | .beacon .. | .beaconTask .. | .timer ..
  | .timerTask .. | .activate .. | .deactivate .. | .disconnectInd .. | .isolate .. | .halt ..
  | .setBridge .. | .init .. => .isTrue trivial

/-- A peer is connected, disconnects, and its manager is cleaned up. -/
theorem references_balanced_cleanup :
    Balanced NoPeer (List.foldl Managers.step start (bringUp 0 ++
      [Step.usrAdd 0 7 plenty, .beacon 7 true, .beaconTask ⟨7, 0⟩ .ok, .connectInd 0 7 (some 1) .ok,
        .disconnectInd 0 7 .ok, .cleanup 0]) : Managers Nat Nat Nat) :=
  (references_balanced (Runs.of_allowed (by decide))).1

/-- The station is indicated again, as a new entry of the database. -/
def again : List (Step Nat Nat Nat) := once ++ [Step.connectInd 0 7 (some 2) .ok]

/-- The interface goes down, and the manager is cleaned up. -/
def afterwards : List (Step Nat Nat Nat) := again ++ [Step.deactivate 0 false, .cleanup 0]

/-- After an exception the bridge mode is changed, so that the interface goes down without WDS being
told, and the manager is cleaned up while the peer has its station. -/
def unnoticed : List (Step Nat Nat Nat) :=
  once ++ [Step.halt 0, .setBridge 0 false, .deactivate 0 false, .cleanup 0]

/-- The reference to the former entry is not dropped, not then and not later. Neither is that of a
peer that has its station when the manager is cleaned up. -/
theorem references_left :
    (Reached (again.foldl Managers.step start) ∧
      ¬ Balanced NoPeer (again.foldl Managers.step start)) ∧
    (Reached (afterwards.foldl Managers.step start) ∧
      ((afterwards.foldl Managers.step start).vap 0).held 7 = [1]) ∧
    (Reached (unnoticed.foldl Managers.step start) ∧
      ((unnoticed.foldl Managers.step start).vap 0).held 7 = [1]) := by
  refine ⟨⟨Runs.of_allowed (by decide), fun h => ?_⟩, ⟨Runs.of_allowed (by decide), by decide⟩,
    Runs.of_allowed (by decide), by decide⟩
  exact absurd (h.length_le 0 7) (by decide)

end Machine

end Wave300.Wds
