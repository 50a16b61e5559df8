import Wave300.Wds.Peers

/-!
# What the entry points of WDS come to

Each entry point that finds its peer changes some of its fields, and then the peer takes a
transition or is left as it is. The rest is as before.
-/

namespace Wave300.Wds

open Lib Managers

section Machine
variable {V A S : Type} [DecidableEq V] [DecidableEq A] [DecidableEq S]
  {s : Managers V A S} {v w : V} {p q : Peer A S}

/-- Only one peer. -/
def Only (v : V) (a : A) : V → A → Prop := fun w b => w = v ∧ b = a

def NoPeer : V → A → Prop := fun _ _ => False

/-! ## What the entry points come to -/

/-- The firmware has not, or no longer, got the peer. -/
def lets (p : Peer A S) (send : Send) : Bool := !p.fwPeerStaAdded || send = .ok

/-- The request to delete a peer that the firmware has. -/
def asked (v : V) (p : Peer A S) (send : Send) : List (Event A V) :=
  if p.fwPeerStaAdded then sent v p.addr false send else []

section Found
variable {a : A} {send : Send}

/-- After a transition the peer is where it leads, or gone, and the others are as before. -/
theorem mem_peerFsm {action : Action} (mem : q ∈ ((peerFsm v p action s).vap w).peersList) :
    w = v ∧ peerNext p action = some q ∨
      q ∈ (s.vap w).peersList ∧ (w = v → q.addr ≠ p.addr) := by
  unfold peerFsm at mem
  split at mem
  next gone => exact .inr (mem_peerRemoveDelete.1 mem)
  next p' next' =>
    have addr : p'.addr = p.addr := by rw [(peerNext_some next').1]
    rw [← addr]
    obtain ⟨here, rfl⟩ | other := mem_put (s := s) mem
    · exact .inl ⟨here, next'⟩
    · exact .inr other

theorem usrDelPeerAp_found (found : s.find v a = some p) : usrDelPeerAp v a send s =
    (if lets p send then
      peerFsm v { p with killOnDisconnect := true, fwPeerStaAdded := false } .disconnect
        (s.note (asked v p send))
    else (s.note (asked v p send)).put v { p with killOnDisconnect := true },
    if p.fwPeerStaAdded then send.res else .ok) := by
  obtain ⟨-, rfl⟩ := findKey_some found
  obtain ⟨addr, kill, added, sta, timer, state⟩ := p
  rw [usrDelPeerAp, found]
  cases added with
  | false => simp [lets, asked]
  | true => by_cases ok : send = .ok <;> simp [lets, asked, sendFwCfgPeerAp, ok]

theorem usrDelPeerAp_ok (found : s.find v a = some p) :
    (usrDelPeerAp v a send s).2 = .ok ↔ lets p send := by
  rw [usrDelPeerAp_found found]
  cases there : p.fwPeerStaAdded <;> simp [lets, there]

theorem peerDisconnect_found (found : s.find v a = some p) :
    (peerDisconnect v a send s).1 =
      let s := (s.setHeld v (decref (s.vap v).held p)).note (asked v p send)
      if lets p send then
        peerFsm v { p with sta := none, fwPeerStaAdded := false } .disconnect s
      else s.put v { p with sta := none } := by
  obtain ⟨-, rfl⟩ := findKey_some found
  obtain ⟨addr, kill, added, sta, timer, state⟩ := p
  rw [peerDisconnect, found]
  cases added with
  | false => simp [lets, asked]
  | true => by_cases ok : send = .ok <;> simp [lets, asked, sendFwCfgPeerAp, ok]

omit [DecidableEq S] in
/-- Adding a peer does nothing, or succeeds. -/
theorem usrAddPeerAp_cases (s : Managers V A S) (v : V) (a : A) (o : Adding) :
    (∃ res, res ≠ .ok ∧ usrAddPeerAp v a o s = (s, res)) ∨
      a ∉ s.addrs v ∧ usrAddPeerAp v a o s =
        (if (s.vap v).connected ∧ o.onBeacon then
          { s.push v (peerInit a) with onBeaconList := ⟨a, v⟩ :: s.onBeaconList }
        else s.push v (peerInit a), .ok) := by
  unfold usrAddPeerAp
  by_cases here : (s.find v a).isSome
  · exact .inl ⟨.alreadyExists, by decide, if_pos here⟩
  have absent : a ∉ s.addrs v := by
    intro mem
    obtain ⟨q, there, same⟩ := List.mem_map.1 mem
    exact findKey_none (Option.not_isSome_iff_eq_none.1 here) there same
  rw [if_neg here]
  by_cases full : o.maxSta = (s.vap v).peersList.length
  · exact .inl ⟨.noMem, by decide, if_pos full⟩
  rw [if_neg full, peerCreateAdd]
  cases o.alloc with
  | false => exact .inl ⟨.noMem, by decide, rfl⟩
  | true =>
    by_cases init : o.init = .ok
    · refine .inr ⟨absent, ?_⟩
      cases up : (s.vap v).connected <;> cases o.onBeacon <;>
        simp [init, up, push, onBeaconCreateAdd]
    · exact .inl ⟨o.init, init, if_pos init⟩

/-- What becomes of the peer that a beacon was heard of. -/
def answer (send : Send) : Action := if send = .ok then .connect else .error

theorem answer_cases (send : Send) : answer send = .connect ∨ answer send = .error := by
  unfold answer
  split <;> simp

theorem answer_ne_disconnect : answer send ≠ .disconnect := by
  obtain is | is := answer_cases send <;> rw [is] <;> decide

/-- The task of a beacon does nothing if the peer is gone or its VAP is down. -/
theorem onBeaconProc_cases (b : OnBeacon A V) (send : Send) (s : Managers V A S) :
    ((s.vap b.vapId).up → s.find b.vapId b.addr = none) ∧ onBeaconProc b send s = s ∨
      ∃ p, s.find b.vapId b.addr = some p ∧ onBeaconProc b send s =
        peerFsm b.vapId (sendFwCfgPeerAp true send p).1 (answer send)
          (s.note (sent b.vapId b.addr true send)) := by
  unfold onBeaconProc
  by_cases present : (s.vap b.vapId).present
  · by_cases connected : (s.vap b.vapId).connected
    · by_cases bridge : (s.vap b.vapId).bridgeWds
      · cases found : s.find b.vapId b.addr with
        | none => exact .inl ⟨fun _ => rfl, by simp⟩
        | some p =>
          exact .inr ⟨p, rfl, by simp [present, connected, bridge, answer, sendFwCfgPeerAp]⟩
      · exact .inl ⟨by simp [Vap.up, bridge], by simp [bridge]⟩
    · exact .inl ⟨by simp [Vap.up, connected], by simp [connected]⟩
  · exact .inl ⟨by simp [Vap.up, present], by simp [present]⟩

end Found

omit [DecidableEq V] [DecidableEq A] [DecidableEq S] in
/-- An entry for each peer for which there is memory goes to the front. -/
theorem onIfUp_eq (alloc : A → Bool) : onIfUp v alloc s =
    { s with
      onBeaconList := (((s.vap v).peersList.filter fun p => alloc p.addr).map fun p =>
        ⟨p.addr, v⟩).reverse ++ s.onBeaconList } := by
  rw [onIfUp]
  generalize (s.vap v).peersList = l
  induction l generalizing s with
  | nil => rfl
  | cons p l ih =>
    rw [List.foldl_cons, ih]
    cases there : alloc p.addr <;> simp [onBeaconCreateAdd, there]

/-! ## Removals -/

omit [DecidableEq V] [DecidableEq S] in
/-- Only the entry that is excluded goes. -/
theorem mem_onBeaconExclude {a : A} {b : OnBeacon A V} (l : List (OnBeacon A V)) (mem : b ∈ l)
    (other : ∀ c ∈ (onBeaconExclude a l).1, c ≠ b) : b ∈ (onBeaconExclude a l).2 := by
  induction l with
  | nil => exact mem
  | cons c l ih =>
    by_cases same : c.addr = a
    · have first : (onBeaconExclude a (c :: l)).1 = some c := by simp [onBeaconExclude, same]
      have rest : (onBeaconExclude a (c :: l)).2 = l := by simp [onBeaconExclude, same]
      rw [rest]
      exact List.mem_of_ne_of_mem (other c first).symm mem
    · have first : (onBeaconExclude a (c :: l)).1 = (onBeaconExclude a l).1 := by
        simp [onBeaconExclude, same]
      have rest : (onBeaconExclude a (c :: l)).2 = c :: (onBeaconExclude a l).2 := by
        simp [onBeaconExclude, same]
      rw [rest]
      rw [first] at other
      obtain rfl | mem := List.mem_cons.1 mem
      · exact List.mem_cons_self
      · exact List.mem_cons_of_mem c (ih mem other)

omit [DecidableEq V] [DecidableEq S] in
/-- What is excluded from a set is not in it any more. -/
theorem not_mem_onBeaconExclude {l : List (OnBeacon A V)} {e : OnBeacon A V} {a : A}
    (nodup : l.Nodup) (excluded : (onBeaconExclude a l).1 = some e) :
    e ∉ (onBeaconExclude a l).2 := by
  induction l with
  | nil => exact List.not_mem_nil
  | cons c l ih =>
    obtain ⟨absent, nodup⟩ := List.nodup_cons.1 nodup
    by_cases same : c.addr = a
    · obtain rfl : c = e := by simpa [onBeaconExclude, same] using excluded
      simpa [onBeaconExclude, same] using absent
    · have excluded' : (onBeaconExclude a l).1 = some e := by
        simpa [onBeaconExclude, same] using excluded
      have rest : (onBeaconExclude a (c :: l)).2 = c :: (onBeaconExclude a l).2 := by
        simp [onBeaconExclude, same]
      have there : e ∈ l := List.mem_of_find?_eq_some excluded'
      rw [rest, List.mem_cons]
      rintro (rfl | mem)
      · exact absent there
      · exact ih nodup excluded' mem

def Idle (p : Peer A S) : Prop := p.state = .disconnected ∨ p.state = .error

instance (p : Peer A S) : Decidable (Idle p) := inferInstanceAs (Decidable (_ ∨ _))

/-- The peer that a step removes, when it removes one. -/
def removed (s : Managers V A S) : Step V A S → Option (V × A)
  | .usrDel v a send =>
    (s.find v a).bind fun p =>
      if lets p send ∧ p.state ≠ .connecting ∧ p.state ≠ .connected then some (v, a) else none
  | .disconnectInd v a send =>
    (s.find v a).bind fun p =>
      if (s.vap v).bridgeWds ∧ lets p send ∧ p.killOnDisconnect ∧ p.state ≠ .connecting ∧
        p.state ≠ .connected then some (v, a) else none
  | .timerTask v a _ _ =>
    (s.find v a).bind fun p =>
      if p.killOnDisconnect ∧ p.state = .disconnecting then some (v, a) else none
  | _ => none

/-! ## The lists of peers -/

/-- The peers of a VAP have different addresses, and a VAP that does not exist has none. -/
structure Vap.Tidy (x : Vap A S) : Prop where
  distinct : (x.peersList.map Peer.addr).Nodup
  absent : ¬ x.present → x.peersList = []

def Managers.Tidy (s : Managers V A S) : Prop := ∀ v, (s.vap v).Tidy

namespace Managers.Tidy

omit [DecidableEq A] [DecidableEq S] in
theorem setVap (h : s.Tidy) {x : Vap A S} (new : x.Tidy) : (s.setVap v x).Tidy := by
  intro w
  by_cases here : w = v
  · subst here
    simpa using new
  · simpa [here] using h w

omit [DecidableEq S] in
theorem put (h : s.Tidy) : (s.put v p).Tidy := by
  refine setVap h ⟨?_, fun gone => ?_⟩
  · rw [map_key_putKey]
    exact (h v).distinct
  · simp [(h v).absent gone, putKey]

theorem fsm (h : s.Tidy) {action : Action} : (peerFsm v p action s).Tidy := by
  unfold peerFsm
  split
  · refine setVap h ⟨nodup_removeKey (h v).distinct, fun gone => ?_⟩
    simp [(h v).absent gone, removeKey]
  · exact h.put

omit [DecidableEq S] in
/-- A peer that is written back unchanged. -/
theorem put_self (h : s.Tidy) (mem : p ∈ (s.vap v).peersList) : s.put v p = s := by
  have same : putKey Peer.addr p (s.vap v).peersList = (s.vap v).peersList :=
    putKey_self (h v).distinct mem
  rw [Managers.put, same, Managers.setVap, Function.update_eq_self]

omit [DecidableEq V] [DecidableEq S] in
/-- The peer that is found is the only one with its address. -/
theorem found {a : A} (h : s.Tidy) (found : s.find v a = some p)
    (mem : q ∈ (s.vap v).peersList) (same : q.addr = a) : q = p := by
  obtain ⟨there, is⟩ := findKey_some found
  exact List.inj_on_of_nodup_map (h v).distinct mem there (same.trans is.symm)

omit [DecidableEq S] in
theorem usrAdd (h : s.Tidy) (present : (s.vap v).present) {a : A} {o : Adding} :
    (usrAddPeerAp v a o s).1.Tidy := by
  obtain ⟨res, -, same⟩ | ⟨absent, same⟩ := usrAddPeerAp_cases s v a o
  · rwa [same]
  · rw [same]
    have new : (s.push v (peerInit a)).Tidy :=
      setVap h ⟨List.nodup_cons.2 ⟨absent, (h v).distinct⟩, fun gone => absurd present gone⟩
    dsimp only
    split
    · exact new
    · exact new

theorem onIfDown (h : s.Tidy) : (onIfDown v s).Tidy := by
  refine setVap h ⟨?_, fun gone => ?_⟩
  · rw [List.map_map]
    exact (h v).distinct
  · simp [(h v).absent gone]

end Managers.Tidy

theorem tidy_step (h : s.Tidy) {i : Step V A S} (enabled : s.Enabled i) : (s.step i).Tidy := by
  cases i with
  | usrAdd v a o => exact h.usrAdd enabled
  | usrDel v a send =>
    change (usrDelPeerAp v a send s).1.Tidy
    cases found : s.find v a with
    | none => rwa [usrDelPeerAp, found]
    | some p =>
      rw [usrDelPeerAp_found found]
      dsimp only
      split
      · apply Managers.Tidy.fsm
        exact h
      · apply Managers.Tidy.put
        exact h
  | beacon a scheduled => exact h
  | beaconTask b send =>
    rw [Managers.step, onBeaconProc]
    split_ifs
    any_goals exact h
    split
    · exact h
    · apply Managers.Tidy.fsm
      exact h
  | connectInd v a sta send =>
    rw [Managers.step, peerConnect]
    split
    · split
      · exact h
      · split
        · apply Managers.Tidy.fsm
          exact h.setVap ⟨(h v).distinct, (h v).absent⟩
        · apply Managers.Tidy.fsm
          exact h
    · exact h
  | disconnectInd v a send =>
    rw [Managers.step]
    split
    · cases found : s.find v a with
      | none => rwa [peerDisconnect, found]
      | some p =>
        have kept : (s.setHeld v (decref (s.vap v).held p)).Tidy :=
          h.setVap ⟨(h v).distinct, (h v).absent⟩
        rw [peerDisconnect_found found]
        dsimp only
        split
        · apply Managers.Tidy.fsm
          exact kept
        · apply Managers.Tidy.put
          exact kept
    · exact h
  | timer v a scheduled =>
    rw [Managers.step]
    split
    · exact h
    · exact h.put
  | timerTask v a send alloc =>
    rw [Managers.step, peerFsmTimer]
    split
    · exact h
    · split
      · apply Managers.Tidy.fsm
        exact h
      · apply Managers.Tidy.fsm
        exact h
      · unfold onBeaconCreateAdd
        split <;> exact h
      · unfold onBeaconCreateAdd
        split <;> exact h
      · exact h
  | activate v alloc =>
    have kept : (s.setVap v { s.vap v with connected := true }).Tidy :=
      h.setVap ⟨(h v).distinct, (h v).absent⟩
    rw [Managers.step]
    dsimp only
    split
    · rw [onIfUp_eq]
      exact kept
    · exact kept
  | deactivate v refused =>
    have down : (if (s.vap v).bridgeWds then onIfDown v s else s).Tidy := by
      split
      · exact h.onIfDown
      · exact h
    rw [Managers.step]
    dsimp only
    split
    · exact down.setVap ⟨(down v).distinct, (down v).absent⟩
    · exact down.setVap ⟨(down v).distinct, (down v).absent⟩
  | isolate v => exact h.onIfDown.setVap ⟨(h.onIfDown v).distinct, (h.onIfDown v).absent⟩
  | halt v => exact h.setVap ⟨(h v).distinct, (h v).absent⟩
  | setBridge v wds => exact h.setVap ⟨(h v).distinct, (h v).absent⟩
  | cleanup v => exact h.setVap ⟨List.nodup_nil, fun _ => rfl⟩
  | init v => exact h.setVap ⟨List.nodup_nil, fun _ => rfl⟩

omit [DecidableEq V] [DecidableEq A] [DecidableEq S] in
theorem tidy_start : (start : Managers V A S).Tidy := fun _ => ⟨List.nodup_nil, fun _ => rfl⟩

/-- At any time the peers of a VAP have different addresses. -/
theorem tidy_run {condition : Managers V A S → Step V A S → Prop} (run : RunsIf condition s) :
    s.Tidy :=
  run.invariant tidy_start fun _ _ h allowed => tidy_step h allowed.1

end Machine

end Wave300.Wds
