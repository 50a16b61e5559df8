import Wave300.Wds.Reactions

/-!
# The list of WDS peers whose beacon is waited for

The list holds an entry at most once, and only for peers that there are. An interface that goes down
takes its own entries and no others.
-/

namespace Wave300.Wds

open Lib Managers

section Machine
variable {V A S : Type} [DecidableEq V] [DecidableEq A] [DecidableEq S]
  {s s' : Managers V A S} {v w : V} {p p' q : Peer A S} {a b : A}

/-- The list is a set, and each of its entries names a peer of its VAP. -/
structure Listing (s : Managers V A S) : Prop where
  nodup : s.onBeaconList.Nodup
  configured : ∀ e ∈ s.onBeaconList, e.addr ∈ s.addrs e.vapId

omit [DecidableEq V] [DecidableEq A] [DecidableEq S] in
/-- Entries may go, peers may come. -/
theorem Listing.mono (h : Listing s) (list : s'.onBeaconList.Sublist s.onBeaconList)
    (peers : ∀ e ∈ s'.onBeaconList, e.addr ∈ s.addrs e.vapId → e.addr ∈ s'.addrs e.vapId) :
    Listing s' where
  nodup := h.nodup.sublist list
  configured e mem := peers e mem (h.configured e (list.subset mem))

omit [DecidableEq S] in
theorem Listing.put (h : Listing s) : Listing (s.put v p) :=
  h.mono (List.Sublist.refl _) fun _ _ there => by rwa [addrs_put]

/-- The entry of a peer is the first one with its address, if it has one. -/
def First (s : Managers V A S) (v : V) (a : A) : Prop :=
  ⟨a, v⟩ ∈ s.onBeaconList → (onBeaconExclude a s.onBeaconList).1 = some ⟨a, v⟩

theorem Listing.remove (h : Listing s) (first : First s v p.addr) :
    Listing (peerRemoveDelete v p s) := by
  refine h.mono List.eraseP_sublist fun e mem there => ?_
  obtain ⟨q, mem', is⟩ := List.mem_map.1 there
  refine List.mem_map.2 ⟨q, mem_peerRemoveDelete.2 ⟨mem', fun here addr => ?_⟩, is⟩
  obtain rfl : e = ⟨p.addr, v⟩ := by
    obtain ⟨addr', vapId⟩ := e
    simp_all
  exact not_mem_onBeaconExclude h.nodup (first (List.mem_of_mem_eraseP mem)) mem

theorem Listing.fsm {action : Action} (h : Listing s)
    (first : peerNext p action = none → First s v p.addr) : Listing (peerFsm v p action s) := by
  unfold peerFsm
  split
  next gone => exact h.remove (first gone)
  next p' _ =>
    have stays := h.put (v := v) (p := p')
    exact ⟨stays.nodup, stays.configured⟩

/-- No entry is made for a peer that has one, and none is left behind when a peer or a manager
goes. -/
def Orderly (s : Managers V A S) (i : Step V A S) : Prop :=
  (∀ t ∈ removed s i, First s t.1 t.2) ∧
  match i with
  | .timerTask v a _ alloc => ∀ p ∈ s.find v a, Idle p → alloc → ⟨a, v⟩ ∉ s.onBeaconList
  | .activate v alloc => (s.vap v).bridgeWds →
    ∀ p ∈ (s.vap v).peersList, alloc p.addr → ⟨p.addr, v⟩ ∉ s.onBeaconList
  | .cleanup v => ∀ e ∈ s.onBeaconList, e.vapId ≠ v
  | _ => True

omit [DecidableEq V] [DecidableEq A] [DecidableEq S] in
/-- Nothing changes but what the list does not depend on. -/
theorem Listing.same (h : Listing s) (list : s'.onBeaconList = s.onBeaconList)
    (peers : ∀ v, s'.addrs v = s.addrs v) : Listing s' :=
  h.mono (list ▸ List.Sublist.refl _) fun e _ there => by rwa [peers]

omit [DecidableEq A] [DecidableEq S] in
theorem Listing.switch (h : Listing s) {x : Vap A S} (peers : x.peersList = (s.vap v).peersList) :
    Listing (s.setVap v x) :=
  h.same rfl fun w => by rw [addrs, read_setVap Vap.peersList peers, addrs]

omit [DecidableEq S] in
theorem listing_usrAdd (h : Listing s) (o : Adding) : Listing (usrAddPeerAp v a o s).1 := by
  obtain ⟨res, -, same⟩ | ⟨absent, same⟩ := usrAddPeerAp_cases s v a o
  · rwa [same]
  have more : ∀ e : OnBeacon A V, e.addr ∈ s.addrs e.vapId →
      e.addr ∈ (s.push v (peerInit a)).addrs e.vapId := by
    intro e there
    by_cases here : e.vapId = v
    · simp only [push, addrs, setVap_vap, here, Function.update_self] at there ⊢
      exact List.mem_cons_of_mem _ there
    · simpa [push, addrs, here] using there
  rw [same]
  dsimp only
  split
  · refine ⟨List.nodup_cons.2 ⟨fun there => absent (h.configured _ there), h.nodup⟩, ?_⟩
    intro e mem
    obtain rfl | there := List.mem_cons.1 mem
    · simp [push, addrs, peerInit]
    · exact more e (h.configured e there)
  · exact h.mono (List.Sublist.refl _) fun e _ => more e

theorem listing_usrDel (h : Listing s) {send : Send}
    (first : ∀ t ∈ removed s (.usrDel v a send), First s t.1 t.2) :
    Listing (usrDelPeerAp v a send s).1 := by
  cases found : s.find v a with
  | none => rwa [usrDelPeerAp, found]
  | some p =>
    obtain ⟨there, rfl⟩ := findKey_some found
    rw [usrDelPeerAp_found found]
    have asked' : Listing (s.note (asked v p send)) := h.same rfl fun _ => rfl
    dsimp only
    split
    next lets' =>
      refine asked'.fsm fun gone => ?_
      obtain ⟨-, -, notConnecting, notConnected⟩ := peerNext_none gone
      exact first (v, p.addr) (by simpa [removed, found] using ⟨lets', notConnecting, notConnected⟩)
    · exact asked'.put

theorem listing_beaconTask (h : Listing s) (b : OnBeacon A V) (send : Send) :
    Listing (onBeaconProc b send s) := by
  obtain ⟨-, same⟩ | ⟨p, found, same⟩ := onBeaconProc_cases b send s
  · rwa [same]
  · rw [same]
    have kept : Listing (s.note (sent b.vapId b.addr true send)) := h.same rfl fun _ => rfl
    exact kept.fsm fun gone => absurd (peerNext_none gone).2.1 answer_ne_disconnect

theorem listing_connectInd (h : Listing s) (sta : Option S) (send : Send) :
    Listing (peerConnect v a sta send s) := by
  rw [peerConnect]
  cases s.find v a with
  | none => exact h
  | some p =>
    cases sta with
    | some sta =>
      have kept : Listing (s.incref v a sta) := h.switch rfl
      exact kept.fsm fun gone => absurd (peerNext_none gone).2.1 (by decide)
    | none =>
      have kept : Listing (s.note (sent v a false send)) := h.same rfl fun _ => rfl
      exact kept.fsm fun gone => absurd (peerNext_none gone).2.1 (by decide)

theorem listing_disconnectInd (h : Listing s) {send : Send} (bridge : (s.vap v).bridgeWds)
    (first : ∀ t ∈ removed s (.disconnectInd v a send), First s t.1 t.2) :
    Listing (peerDisconnect v a send s).1 := by
  cases found : s.find v a with
  | none => rwa [peerDisconnect, found]
  | some p =>
    obtain ⟨there, rfl⟩ := findKey_some found
    rw [peerDisconnect_found found]
    have kept : Listing ((s.setHeld v (decref (s.vap v).held p)).note (asked v p send)) :=
      (h.switch (v := v) (x := { s.vap v with held := decref (s.vap v).held p }) rfl).same rfl
        fun _ => rfl
    dsimp only
    split
    next lets' =>
      refine kept.fsm fun gone => ?_
      obtain ⟨kill, -, notConnecting, notConnected⟩ := peerNext_none gone
      exact first (v, p.addr)
        (by simpa [removed, found] using ⟨bridge, lets', kill, notConnecting, notConnected⟩)
    · exact kept.put

theorem listing_timerTask (h : Listing s) {send : Send} {alloc : Bool}
    (new : ∀ p ∈ s.find v a, Idle p → alloc → ⟨a, v⟩ ∉ s.onBeaconList)
    (first : ∀ t ∈ removed s (.timerTask v a send alloc), First s t.1 t.2) :
    Listing (peerFsmTimer v a send alloc s) := by
  rw [peerFsmTimer]
  cases found : s.find v a with
  | none => exact h
  | some p =>
    obtain ⟨there, rfl⟩ := findKey_some found
    have listed : Idle p → Listing (onBeaconCreateAdd v p.addr alloc s).1 := by
      intro idle
      unfold onBeaconCreateAdd
      split
      next memory =>
        refine ⟨List.nodup_cons.2 ⟨new p found idle memory, h.nodup⟩, fun e mem => ?_⟩
        obtain rfl | there' := List.mem_cons.1 mem
        · exact List.mem_map_of_mem there
        · exact h.configured e there'
      · exact h
    dsimp only
    split
    next state =>
      have kept : Listing (s.note (sent v p.addr false send)) := h.same rfl fun _ => rfl
      exact kept.fsm fun gone => absurd (peerNext_none gone).2.1 (by decide)
    next state =>
      refine h.fsm fun gone => ?_
      exact first (v, p.addr) (by simpa [removed, found, state] using (peerNext_none gone).1)
    next state => exact listed (.inr state)
    next state => exact listed (.inl state)
    · exact h

omit [DecidableEq V] [DecidableEq A] [DecidableEq S] in
/-- An interface that comes up makes an entry for each of its peers. -/
theorem listing_onIfUp (h : Listing s) (tidy : s.Tidy) {alloc : A → Bool}
    (new : ∀ p ∈ (s.vap v).peersList, alloc p.addr → ⟨p.addr, v⟩ ∉ s.onBeaconList) :
    Listing (onIfUp v alloc s) := by
  rw [onIfUp_eq]
  have entries : ∀ e ∈ (((s.vap v).peersList.filter fun p => alloc p.addr).map fun p =>
      (⟨p.addr, v⟩ : OnBeacon A V)).reverse, ∃ p ∈ (s.vap v).peersList, alloc p.addr ∧
        ⟨p.addr, v⟩ = e := by
    intro e mem
    obtain ⟨p, mem, is⟩ := List.mem_map.1 (List.mem_reverse.1 mem)
    obtain ⟨there, memory⟩ := List.mem_filter.1 mem
    exact ⟨p, there, memory, is⟩
  constructor
  case nodup =>
    refine List.Nodup.append ?_ h.nodup fun e made before => ?_
    · rw [List.nodup_reverse]
      have distinct : (((s.vap v).peersList.filter fun p => alloc p.addr).map Peer.addr).Nodup :=
        (tidy v).distinct.sublist (List.filter_sublist.map _)
      have keyed := distinct.map (f := fun a => (⟨a, v⟩ : OnBeacon A V))
        fun a b same => (OnBeacon.mk.inj same).1
      rwa [List.map_map] at keyed
    · obtain ⟨p, there, memory, rfl⟩ := entries e made
      exact new p there memory before
  case configured =>
    intro e mem
    obtain made | before := List.mem_append.1 mem
    · obtain ⟨p, there, -, rfl⟩ := entries e made
      exact List.mem_map_of_mem there
    · exact h.configured e before

theorem listing_onIfDown (h : Listing s) : Listing (onIfDown v s) := by
  refine h.mono List.filter_sublist fun e mem there => ?_
  have other : e.vapId ≠ v := by simpa using (List.mem_filter.1 mem).2
  simpa [addrs, onIfDown, other] using there

theorem listing_step (h : Listing s) (tidy : s.Tidy) {i : Step V A S} (enabled : s.Enabled i)
    (orderly : Orderly s i) : Listing (s.step i) := by
  obtain ⟨first, orderly⟩ := orderly
  cases i with
  | usrAdd v a o => exact (listing_usrAdd h o).same rfl fun _ => rfl
  | usrDel v a send => exact (listing_usrDel h first).same rfl fun _ => rfl
  | beacon a scheduled => exact h.mono List.eraseP_sublist fun _ _ => id
  | beaconTask b send =>
    apply listing_beaconTask
    exact h.same rfl fun _ => rfl
  | connectInd v a sta send =>
    rw [Managers.step]
    split
    · exact listing_connectInd h sta send
    · exact h
  | disconnectInd v a send =>
    rw [Managers.step]
    split
    next bridge => exact listing_disconnectInd h bridge first
    · exact h
  | timer v a scheduled =>
    rw [Managers.step]
    split
    · exact h
    next p found =>
      exact (h.put (v := v) (p := { p with fsmTimer := false })).same rfl fun _ => rfl
  | timerTask v a send alloc =>
    have taken : Listing { s with timerTasks := s.timerTasks.erase (v, a) } :=
      h.same rfl fun _ => rfl
    exact listing_timerTask taken orderly first
  | activate v alloc =>
    have kept : Listing (s.setVap v { s.vap v with connected := true }) := h.switch rfl
    have bridge : ((s.setVap v { s.vap v with connected := true }).vap v).bridgeWds =
        (s.vap v).bridgeWds := read_setVap Vap.bridgeWds rfl
    rw [Managers.step]
    dsimp only
    rw [bridge]
    split
    next up =>
      refine listing_onIfUp kept (tidy.setVap ⟨(tidy v).distinct, (tidy v).absent⟩) ?_
      intro p mem
      rw [read_setVap (x := { s.vap v with connected := true }) Vap.peersList rfl] at mem
      exact orderly up p mem
    · exact kept
  | deactivate v refused =>
    have down : Listing (if (s.vap v).bridgeWds then onIfDown v s else s) := by
      split
      · exact listing_onIfDown h
      · exact h
    rw [Managers.step]
    dsimp only
    split
    · exact down.switch rfl
    · exact down.switch rfl
  | isolate v => exact (listing_onIfDown h).switch rfl
  | halt v => exact h.switch rfl
  | setBridge v wds => exact h.switch rfl
  | cleanup v =>
    refine h.mono (List.Sublist.refl _) fun e mem there => ?_
    simpa [addrs, Managers.step, Wds.cleanup, orderly e mem] using there
  | init v =>
    refine h.mono (List.Sublist.refl _) fun e mem there => ?_
    have other : e.vapId ≠ v := by
      rintro rfl
      rw [addrs, (tidy _).absent enabled] at there
      exact List.not_mem_nil there
    simpa [addrs, Managers.step, Wds.init, other] using there

/-- Of the entries of the other VAPs none goes, none comes and none changes its place. -/
theorem onIfDown_others (s : Managers V A S) (other : w ≠ v) :
    (onIfDown v s).onBeaconList.filter (fun e => e.vapId = w) =
      s.onBeaconList.filter fun e => e.vapId = w := by
  rw [onIfDown, List.filter_filter]
  apply List.filter_congr
  intro e _
  by_cases here : e.vapId = w
  · simp [here, other]
  · simp [here]

omit [DecidableEq V] [DecidableEq A] [DecidableEq S] in
theorem listing_start : Listing (start : Managers V A S) :=
  ⟨List.nodup_nil, fun _ mem => absurd mem List.not_mem_nil⟩

/-- The list is a set of peers that there are, in every run in which no entry is made for a peer
that has one and none is left behind by a peer or a manager that goes. An interface that goes down
takes its entries and no others. -/
theorem on_beacon_list_set (run : RunsIf Orderly s) : Listing s ∧ ∀ v,
    (∀ e ∈ (onIfDown v s).onBeaconList, e.vapId ≠ v) ∧
      ∀ w, w ≠ v → (onIfDown v s).onBeaconList.filter (fun e => e.vapId = w) =
        s.onBeaconList.filter fun e => e.vapId = w := by
  obtain ⟨listing, -⟩ := Runs.invariant (P := fun s => Listing s ∧ s.Tidy) run
    ⟨listing_start, tidy_start⟩ fun s i h allowed =>
      ⟨listing_step h.1 h.2 allowed.1 allowed.2, tidy_step h.2 allowed.1⟩
  refine ⟨listing, fun v => ⟨fun e mem => ?_, fun w other => onIfDown_others s other⟩⟩
  simpa using (List.mem_filter.1 mem).2

instance (s : Managers V A S) (v : V) (a : A) : Decidable (First s v a) :=
  inferInstanceAs (Decidable (_ → _))

instance (s : Managers V A S) : DecidablePred (Orderly s) := fun i =>
  match i with
  | .usrAdd .. | .beacon .. | .timer .. | .timerTask .. | .activate .. | .usrDel ..
  | .beaconTask .. | .connectInd .. | .disconnectInd .. | .deactivate .. | .isolate .. | .halt ..
  | .setBridge .. | .cleanup .. | .init .. => inferInstanceAs (Decidable (_ ∧ _))

/-- A peer is refused, tried again, and deleted. -/
theorem on_beacon_list_set_deleted :
    Listing (List.foldl Managers.step start (bringUp 0 ++
      [Step.usrAdd 0 7 plenty, .beacon 7 true, .beaconTask ⟨7, 0⟩ .failed, .timer 0 7 true,
        .timerTask 0 7 .ok true, .usrDel 0 7 .ok]) : Managers Nat Nat Nat) :=
  (on_beacon_list_set (Runs.of_allowed (by decide))).1

/-- A late connection of a peer whose beacon is waited for fails, and the timer runs out. -/
def late : List (Step Nat Nat Nat) :=
  bringUp 0 ++ [Step.usrAdd 0 7 plenty, .connectInd 0 7 none .ok, .timer 0 7 true,
    .timerTask 0 7 .ok true]

/-- The list holds the entry of a peer twice, and the entry of one that is gone. -/
theorem on_beacon_list_not_set :
    (Reached (late.foldl Managers.step start) ∧
      ¬ (late.foldl Managers.step start).onBeaconList.Nodup) ∧
    (Reached (crossing.foldl Managers.step start) ∧
      ¬ ∀ e ∈ (crossing.foldl Managers.step start).onBeaconList,
        e.addr ∈ (crossing.foldl Managers.step start).addrs e.vapId) :=
  ⟨⟨Runs.of_allowed (by decide), by decide⟩, Runs.of_allowed (by decide), by decide⟩

end Machine

end Wave300.Wds
