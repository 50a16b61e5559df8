import Wave300.Wds.Reactions

/-!
# No WDS peer is stranded

While its VAP is up, a peer that is not connected waits for its timer, for a beacon, or for the task
of one of these.
-/

namespace Wave300.Wds

open Lib Managers

section Machine
variable {V A S : Type} [DecidableEq V] [DecidableEq A] [DecidableEq S]
  {s s' : Managers V A S} {v w : V} {p p' q : Peer A S} {a : A}

def Busy (p : Peer A S) : Prop := p.state = .connecting ∨ p.state = .disconnecting

/-- The timer is set, or has gone off and its task waits. -/
def Timed (s : Managers V A S) (v : V) (p : Peer A S) : Prop :=
  p.fsmTimer ∨ (v, p.addr) ∈ s.timerTasks

/-- A beacon of the peer is waited for, or was heard and its task waits. -/
def Listed (s : Managers V A S) (v : V) (a : A) : Prop :=
  ⟨a, v⟩ ∈ s.onBeaconList ∨ ⟨a, v⟩ ∈ s.beaconTasks

/-- What is waited for, for a peer to get on. -/
structure Carried (s : Managers V A S) (v : V) (p : Peer A S) : Prop where
  idle : (s.vap v).up → Idle p → Timed s v p ∨ Listed s v p.addr
  busy : Busy p → Timed s v p

/-- Every peer gets on. -/
def NeverStranded (s : Managers V A S) : Prop := ∀ v, ∀ p ∈ (s.vap v).peersList, Carried s v p

/-- The peers but those at one address of one VAP. -/
def Others (s : Managers V A S) (v : V) (a : A) : Prop :=
  ∀ w, ∀ q ∈ (s.vap w).peersList, (w = v → q.addr ≠ a) → Carried s w q

omit [DecidableEq V] [DecidableEq A] [DecidableEq S] in
theorem Carried.mono (h : Carried s v p) (up : (s'.vap v).up → (s.vap v).up)
    (timer : (v, p.addr) ∈ s.timerTasks → (v, p.addr) ∈ s'.timerTasks)
    (listed : Listed s v p.addr → Listed s' v p.addr) : Carried s' v p where
  idle up' state := (h.idle (up up') state).imp (Or.imp_right timer) listed
  busy state := (h.busy state).imp_right timer

omit [DecidableEq V] [DecidableEq A] [DecidableEq S] in
theorem carried_of_timer (timer : p.fsmTimer) : Carried s v p :=
  ⟨fun _ _ => .inl (.inl timer), fun _ => .inl timer⟩

omit [DecidableEq V] [DecidableEq A] [DecidableEq S] in
theorem carried_of_connected (connected : p.state = .connected) : Carried s v p :=
  ⟨by simp [Idle, connected], by simp [Busy, connected]⟩

omit [DecidableEq A] [DecidableEq S] in
/-- A peer whose timer ran out gets it set again, unless it is removed. -/
theorem timer_of_timeout {action : Action}
    (timeout : p.state = .connecting ∧ action = .error ∨
      p.state = .disconnecting ∧ action = .disconnect)
    (next : peerNext p action = some p') : p'.fsmTimer := by
  obtain ⟨state, rfl⟩ | ⟨state, rfl⟩ := timeout
  · simp only [peerNext, state, Option.some.injEq] at next
    rw [← next]
  · by_cases kill : p.killOnDisconnect
    · simp [peerNext, state, kill] at next
    · simp only [peerNext, state, kill, Bool.false_eq_true, if_false, Option.some.injEq] at next
      rw [← next]

omit [DecidableEq V] [DecidableEq A] [DecidableEq S] in
/-- A transition sets the timer, or leads to where nothing is waited for. -/
theorem carried_next {action : Action} (next : peerNext p action = some p') (h : Carried s v p) :
    Carried s v p' := by
  obtain ⟨-, timer | connected | rfl⟩ := peerNext_some next
  · exact carried_of_timer timer
  · exact carried_of_connected connected
  · exact h

omit [DecidableEq V] [DecidableEq A] [DecidableEq S] in
/-- On an attempt to connect, and on an error, a peer that waited only for a beacon gets its timer
set. -/
theorem carried_answer {action : Action} (answer : action = .connect ∨ action = .error)
    (busy : Busy p → Timed s v p) (next : peerNext p action = some p') : Carried s v p' := by
  by_cases idle : Idle p
  · apply carried_of_timer
    obtain state | state := idle <;> obtain rfl | rfl := answer <;>
      simp only [peerNext, state, Option.some.injEq] at next <;> rw [← next]
  · obtain ⟨-, timer | connected | rfl⟩ := peerNext_some next
    · exact carried_of_timer timer
    · exact carried_of_connected connected
    · exact ⟨fun _ idle' => absurd idle' idle, busy⟩

omit [DecidableEq V] [DecidableEq A] [DecidableEq S] in
theorem NeverStranded.others (h : NeverStranded s)
    (vap : ∀ w, (s'.vap w).peersList = (s.vap w).peersList)
    (up : ∀ w, (s'.vap w).up = (s.vap w).up)
    (timer : ∀ t, t ≠ (v, a) → t ∈ s.timerTasks → t ∈ s'.timerTasks)
    (listed : ∀ w b, (w, b) ≠ (v, a) → Listed s w b → Listed s' w b) : Others s' v a := by
  intro w q mem other
  rw [vap] at mem
  have ne : (w, q.addr) ≠ (v, a) := by
    intro same
    obtain ⟨rfl, rfl⟩ := Prod.mk.inj same
    exact other rfl rfl
  exact (h w q mem).mono (up w ▸ id) (timer _ ne) (listed _ _ ne)

omit [DecidableEq S] in
theorem Others.put (h : Others s v p.addr) (here : Carried s v p) : NeverStranded (s.put v p) := by
  intro w q mem
  have up : ((s.put v p).vap w).up = (s.vap w).up := read_setVap Vap.up rfl
  obtain ⟨rfl, rfl⟩ | ⟨there, other⟩ := mem_put mem
  · exact here.mono (up ▸ id) id id
  · exact (h w q there other).mono (up ▸ id) id id

/-- The entry that is excluded with a peer is one of its VAP. -/
def OwnEntry (s : Managers V A S) (v : V) (a : A) : Prop :=
  ∀ b ∈ (onBeaconExclude a s.onBeaconList).1, b.vapId = v

theorem Others.remove (h : Others s v p.addr) (own : OwnEntry s v p.addr) :
    NeverStranded (peerRemoveDelete v p s) := by
  intro w q mem
  have up : ((peerRemoveDelete v p s).vap w).up = (s.vap w).up := read_setVap Vap.up rfl
  obtain ⟨there, other⟩ := mem_peerRemoveDelete.1 mem
  refine Carried.mono (h w q there other) (up ▸ id) id ?_
  rintro (entry | task)
  · refine .inl (mem_onBeaconExclude _ entry ?_)
    rintro c excluded rfl
    have is : q.addr = p.addr := by simpa using List.find?_some excluded
    exact other (own _ excluded) is
  · exact .inr task

theorem Others.fsm {action : Action} (h : Others s v p.addr)
    (next : ∀ p', peerNext p action = some p' → Carried s v p')
    (own : peerNext p action = none → OwnEntry s v p.addr) :
    NeverStranded (peerFsm v p action s) := by
  unfold peerFsm
  split
  next gone => exact h.remove (own gone)
  next p' there =>
    have addr : p'.addr = p.addr := by rw [(peerNext_some there).1]
    have kept := Others.put (p := p') (addr ▸ h) (next p' there)
    exact fun w q mem => (kept w q mem).mono id id id

/-- Memory and tasks are had where they are needed, and no entry of another VAP is taken along with
a peer that is removed. -/
def Sustained (s : Managers V A S) (i : Step V A S) : Prop :=
  (∀ t ∈ removed s i, OwnEntry s t.1 t.2) ∧
  match i with
  | .usrAdd v _ o => (s.vap v).connected → o.onBeacon
  | .beacon a scheduled => (onBeaconExclude a s.onBeaconList).1.isSome → scheduled
  | .timer _ _ scheduled => scheduled
  | .timerTask v a _ alloc => ∀ p ∈ s.find v a, Idle p → alloc
  | .activate v alloc => (s.vap v).bridgeWds → ∀ p ∈ (s.vap v).peersList, alloc p.addr
  | _ => True

instance (s : Managers V A S) (v : V) (a : A) : Decidable (OwnEntry s v a) :=
  inferInstanceAs (Decidable (∀ b ∈ (onBeaconExclude a s.onBeaconList).1, b.vapId = v))

instance (s : Managers V A S) : DecidablePred (Sustained s) := fun i =>
  match i with
  | .usrAdd .. | .beacon .. | .timer .. | .timerTask .. | .activate .. | .usrDel ..
  | .beaconTask .. | .connectInd .. | .disconnectInd .. | .deactivate .. | .isolate .. | .halt ..
  | .setBridge .. | .cleanup .. | .init .. => inferInstanceAs (Decidable (_ ∧ _))

omit [DecidableEq V] [DecidableEq A] [DecidableEq S] in
theorem NeverStranded.mono (h : NeverStranded s)
    (vap : ∀ w, (s'.vap w).peersList = (s.vap w).peersList)
    (up : ∀ w, (s'.vap w).up → (s.vap w).up)
    (timer : ∀ t, t ∈ s.timerTasks → t ∈ s'.timerTasks)
    (listed : ∀ w b, Listed s w b → Listed s' w b) : NeverStranded s' :=
  fun w q mem => (h w q (vap w ▸ mem)).mono (up w) (timer _) (listed _ _)

omit [DecidableEq V] [DecidableEq A] [DecidableEq S] in
theorem NeverStranded.note (h : NeverStranded s) (events : List (Event A V)) :
    NeverStranded (s.note events) :=
  h.mono (fun _ => rfl) (fun _ => id) (fun _ => id) (fun _ _ => id)

omit [DecidableEq A] [DecidableEq S] in
theorem NeverStranded.setHeld (h : NeverStranded s) (v : V) (held : A → List S) :
    NeverStranded (s.setHeld v held) :=
  h.mono (by simp) (by simp) (fun _ => id) (fun _ _ => id)

omit [DecidableEq S] in
theorem neverStranded_usrAdd (h : NeverStranded s) {o : Adding}
    (alloc : (s.vap v).connected → o.onBeacon) : NeverStranded (usrAddPeerAp v a o s).1 := by
  obtain ⟨res, -, same⟩ | ⟨absent, same⟩ := usrAddPeerAp_cases s v a o
  · rwa [same]
  rw [same]
  dsimp only
  have up : ∀ w, ((s.push v (peerInit a)).vap w).up = (s.vap w).up :=
    fun w => read_setVap Vap.up rfl
  intro w q mem
  have mem' : q ∈ ((s.push v (peerInit a)).vap w).peersList := by
    split at mem <;> exact mem
  obtain ⟨rfl, rfl⟩ | there := mem_push mem'
  · refine ⟨fun up' _ => .inr (.inl ?_), by simp [Busy, peerInit]⟩
    have connected : (s.vap w).connected := by
      have here : (s.vap w).up := by
        split at up' <;> exact up w ▸ up'
      simp only [Vap.up, Bool.and_eq_true] at here
      exact here.1.1.2
    rw [if_pos ⟨connected, alloc connected⟩]
    exact List.mem_cons_self
  · split
    · exact (h w q there).mono (up w ▸ id) id (Or.imp_left (List.mem_cons_of_mem _))
    · exact (h w q there).mono (up w ▸ id) id id

theorem neverStranded_usrDel (h : NeverStranded s) {send : Send}
    (own : ∀ t ∈ removed s (.usrDel v a send), OwnEntry s t.1 t.2) :
    NeverStranded (usrDelPeerAp v a send s).1 := by
  cases found : s.find v a with
  | none => rwa [usrDelPeerAp, found]
  | some p =>
    obtain ⟨there, rfl⟩ := findKey_some found
    rw [usrDelPeerAp_found found]
    have others : Others (s.note (asked v p send)) v p.addr := fun w q mem _ => h.note _ w q mem
    have here := h.note (asked v p send) v p there
    dsimp only
    split
    next lets' =>
      refine Others.fsm others (fun p' next => carried_next next ⟨here.idle, here.busy⟩) ?_
      intro gone
      obtain ⟨-, -, notConnecting, notConnected⟩ := peerNext_none gone
      exact own (v, p.addr) (by simpa [removed, found] using ⟨lets', notConnecting, notConnected⟩)
    · exact Others.put others ⟨here.idle, here.busy⟩

/-- What the manager does to the peer that was found. -/
theorem NeverStranded.fsm (h : NeverStranded s) {action : Action} (there : p ∈ (s.vap v).peersList)
    (same : p' = { p with
      killOnDisconnect := p'.killOnDisconnect, fwPeerStaAdded := p'.fwPeerStaAdded, sta := p'.sta })
    (own : peerNext p' action = none → OwnEntry s v p.addr) :
    NeverStranded (peerFsm v p' action s) := by
  have addr : p'.addr = p.addr := by rw [same]
  refine Others.fsm (fun w q mem _ => h w q mem) (fun _ next => carried_next next ?_) (addr ▸ own)
  rw [same]
  exact ⟨(h v p there).idle, (h v p there).busy⟩

theorem neverStranded_connectInd (h : NeverStranded s) (sta : Option S) (send : Send) :
    NeverStranded (peerConnect v a sta send s) := by
  rw [peerConnect]
  cases found : s.find v a with
  | none => exact h
  | some p =>
    obtain ⟨there, rfl⟩ := findKey_some found
    cases sta with
    | some sta =>
      have kept : NeverStranded (s.incref v p.addr sta) := h.setHeld v _
      have mem : p ∈ ((s.incref v p.addr sta).vap v).peersList := by
        rwa [incref, peersList_setHeld]
      refine kept.fsm mem rfl fun gone => ?_
      exact absurd (peerNext_none gone).2.1 (by decide)
    | none =>
      refine (h.note (sent v p.addr false send)).fsm there ?_ fun gone => ?_
      · unfold sendFwCfgPeerAp
        split <;> rfl
      · exact absurd (peerNext_none gone).2.1 (by decide)

theorem neverStranded_disconnectInd (h : NeverStranded s) {send : Send}
    (bridge : (s.vap v).bridgeWds)
    (own : ∀ t ∈ removed s (.disconnectInd v a send), OwnEntry s t.1 t.2) :
    NeverStranded (peerDisconnect v a send s).1 := by
  cases found : s.find v a with
  | none => rwa [peerDisconnect, found]
  | some p =>
    obtain ⟨there, rfl⟩ := findKey_some found
    rw [peerDisconnect_found found]
    have kept := (h.setHeld v (decref (s.vap v).held p)).note (asked v p send)
    have mem : p ∈ ((s.setHeld v (decref (s.vap v).held p)).vap v).peersList := by
      rwa [peersList_setHeld]
    dsimp only
    split
    next lets' =>
      refine kept.fsm mem rfl fun gone => ?_
      obtain ⟨kill, -, notConnecting, notConnected⟩ := peerNext_none gone
      exact own (v, p.addr)
        (by simpa [removed, found] using ⟨bridge, lets', kill, notConnecting, notConnected⟩)
    · exact Others.put (fun w q mem _ => kept w q mem) ⟨(kept v p mem).idle, (kept v p mem).busy⟩

omit [DecidableEq S] in
theorem neverStranded_beacon (h : NeverStranded s) {scheduled : Bool}
    (accepted : (onBeaconExclude a s.onBeaconList).1.isSome → scheduled) :
    NeverStranded { s with
      onBeaconList := (onBeaconExclude a s.onBeaconList).2
      beaconTasks := s.beaconTasks ++
        if scheduled then (onBeaconExclude a s.onBeaconList).1.toList else [] } := by
  refine h.mono (fun _ => rfl) (fun _ => id) (fun _ => id) ?_
  rintro w b (entry | task)
  · by_cases taken : (onBeaconExclude a s.onBeaconList).1 = some ⟨b, w⟩
    · refine .inr (List.mem_append_right _ ?_)
      rw [if_pos (accepted (by rw [taken]; rfl)), taken]
      exact List.mem_singleton_self _
    · refine .inl (mem_onBeaconExclude _ entry ?_)
      rintro c excluded rfl
      exact taken excluded
  · exact .inr (List.mem_append_left _ task)

theorem neverStranded_beaconTask (h : NeverStranded s) (b : OnBeacon A V) (send : Send) :
    NeverStranded (onBeaconProc b send { s with beaconTasks := s.beaconTasks.erase b }) := by
  have others : Others { s with beaconTasks := s.beaconTasks.erase b } b.vapId b.addr := by
    refine h.others (fun _ => rfl) (fun _ => rfl) (fun _ _ => id) ?_
    rintro w c other (entry | task)
    · exact .inl entry
    · refine .inr ((List.mem_erase_of_ne ?_).2 task)
      rintro rfl
      exact other rfl
  obtain ⟨gone, same⟩ | ⟨p, found, same⟩ := onBeaconProc_cases b send
    { s with beaconTasks := s.beaconTasks.erase b }
  · rw [same]
    intro w q mem
    by_cases here : w = b.vapId ∧ q.addr = b.addr
    · obtain ⟨rfl, addr⟩ := here
      refine ⟨fun up => absurd addr (findKey_none (gone up) mem), fun busy => ?_⟩
      exact (h _ q mem).busy busy
    · exact others w q mem fun same addr => here ⟨same, addr⟩
  · rw [same]
    obtain ⟨there, is⟩ := findKey_some found
    have fst := sendFwCfgPeerAp_fst true send p
    have addr : (sendFwCfgPeerAp true send p).1.addr = b.addr := by rw [fst, ← is]
    refine Others.fsm (fun w q mem other => ?_) (fun p' next => ?_) fun gone => ?_
    · exact (others w q mem (addr ▸ other)).mono id id id
    · refine carried_answer (answer_cases send) ?_ next
      rw [fst]
      exact fun busy => (h b.vapId p there).busy busy
    · exact absurd (peerNext_none gone).2.1 answer_ne_disconnect

omit [DecidableEq S] in
theorem neverStranded_timer (h : NeverStranded s) (found : s.find v a = some p) :
    NeverStranded { s.put v { p with fsmTimer := false } with
      timerTasks := s.timerTasks ++ [(v, a)] } := by
  obtain ⟨there, rfl⟩ := findKey_some found
  have more : NeverStranded { s with timerTasks := s.timerTasks ++ [(v, p.addr)] } :=
    h.mono (fun _ => rfl) (fun _ => id) (fun _ => List.mem_append_left _) (fun _ _ => id)
  have timed : Timed { s with timerTasks := s.timerTasks ++ [(v, p.addr)] } v
      { p with fsmTimer := false } := .inr (List.mem_append_right _ (List.mem_singleton_self _))
  exact Others.put (p := { p with fsmTimer := false }) (fun w q mem _ => more w q mem)
    ⟨fun _ _ => .inl timed, fun _ => timed⟩

theorem neverStranded_timerTask (h : NeverStranded s) (tidy : s.Tidy) {send : Send}
    {alloc : Bool} (memory : ∀ p ∈ s.find v a, Idle p → alloc)
    (own : ∀ t ∈ removed s (.timerTask v a send alloc), OwnEntry s t.1 t.2) :
    NeverStranded (peerFsmTimer v a send alloc
      { s with timerTasks := s.timerTasks.erase (v, a) }) := by
  have others : Others { s with timerTasks := s.timerTasks.erase (v, a) } v a :=
    h.others (fun _ => rfl) (fun _ => rfl) (fun _ other => (List.mem_erase_of_ne other).2)
      (fun _ _ _ => id)
  have found' : { s with timerTasks := s.timerTasks.erase (v, a) : Managers V A S }.find v a =
    s.find v a := rfl
  rw [peerFsmTimer, found']
  cases found : s.find v a with
  | none =>
    intro w q mem
    exact others w q mem fun same => findKey_none found (same ▸ mem)
  | some p =>
    obtain ⟨there, rfl⟩ := findKey_some found
    have others' : ∀ w, ∀ q ∈ (s.vap w).peersList, ¬ (w = v ∧ q = p) →
        Carried { s with timerTasks := s.timerTasks.erase (v, p.addr) } w q := by
      intro w q mem other
      refine others w q mem ?_
      rintro rfl same
      exact other ⟨rfl, tidy.found found mem same⟩
    have idle : Idle p → NeverStranded (onBeaconCreateAdd v p.addr alloc
        { s with timerTasks := s.timerTasks.erase (v, p.addr) }).1 := by
      intro idle
      rw [memory p found idle]
      intro w q mem
      by_cases here : w = v ∧ q = p
      · obtain ⟨rfl, rfl⟩ := here
        refine ⟨fun _ _ => .inr (.inl List.mem_cons_self), fun busy => ?_⟩
        obtain state | state := idle <;> simp [Busy, state] at busy
      · exact (others' w q mem here).mono id id (Or.imp_left (List.mem_cons_of_mem _))
    dsimp only
    cases state : p.state with
    | connecting =>
      have fst := sendFwCfgPeerAp_fst false send p
      have addr : (sendFwCfgPeerAp false send p).1.addr = p.addr := by rw [fst]
      have state' : (sendFwCfgPeerAp false send p).1.state = .connecting := by rw [fst, ← state]
      refine Others.fsm (fun w q mem other => ?_) (fun p' next => carried_of_timer ?_)
        fun gone => ?_
      · exact (others w q mem (addr ▸ other)).mono id id id
      · exact timer_of_timeout (.inl ⟨state', rfl⟩) next
      · exact absurd (peerNext_none gone).2.1 (by decide)
    | disconnecting =>
      refine Others.fsm others (fun p' next => carried_of_timer ?_) fun gone => ?_
      · exact timer_of_timeout (.inr ⟨state, rfl⟩) next
      · exact own (v, p.addr) (by simpa [removed, found, state] using (peerNext_none gone).1)
    | error => exact idle (.inr state)
    | disconnected => exact idle (.inl state)
    | connected =>
      intro w q mem
      by_cases here : w = v ∧ q = p
      · obtain ⟨rfl, rfl⟩ := here
        exact carried_of_connected state
      · exact others' w q mem here

omit [DecidableEq A] [DecidableEq S] in
/-- A VAP is not up afterwards, and its peers are as before or wait for nothing. -/
theorem NeverStranded.down (h : NeverStranded s) {x : Vap A S}
    (vap : s'.vap = Function.update s.vap v x) (down : ¬ x.up)
    (busy : ∀ p ∈ x.peersList, Busy p → Timed s' v p)
    (timer : ∀ t ∈ s.timerTasks, t.1 ≠ v → t ∈ s'.timerTasks)
    (listed : ∀ w b, w ≠ v → Listed s w b → Listed s' w b) : NeverStranded s' := by
  intro w q mem
  by_cases here : w = v
  · subst here
    rw [vap, Function.update_self] at mem
    refine ⟨fun up => ?_, busy q mem⟩
    rw [vap, Function.update_self] at up
    exact absurd up down
  · rw [vap, Function.update_of_ne here] at mem
    refine (h w q mem).mono (fun up => ?_) (fun there => timer _ there here) (listed w _ here)
    rwa [vap, Function.update_of_ne here] at up

theorem neverStranded_onIfDown (h : NeverStranded s) {x : Vap A S} (down : ¬ x.up)
    (peers : x.peersList = ((onIfDown v s).vap v).peersList) :
    NeverStranded ((onIfDown v s).setVap v x) := by
  refine h.down (v := v) (x := x) ?_ down ?_ (fun _ there _ => there) ?_
  · simp [onIfDown]
  · intro p mem busy
    rw [peers] at mem
    obtain ⟨q, -, rfl⟩ : ∃ q ∈ (s.vap v).peersList, _ = p := by
      simpa [onIfDown] using mem
    simp [Busy] at busy
  · rintro w b other (entry | task)
    · exact .inl (by simpa [onIfDown, other] using entry)
    · exact .inr task

omit [DecidableEq A] [DecidableEq S] in
/-- What is done to a VAP that leaves its peers as they are and does not get it up. -/
theorem NeverStranded.switch (h : NeverStranded s) {x : Vap A S} (down : ¬ x.up)
    (peers : x.peersList = (s.vap v).peersList) : NeverStranded (s.setVap v x) :=
  h.down rfl down (fun p mem busy => (h v p (peers ▸ mem)).busy busy) (fun _ there _ => there)
    fun _ _ _ => id

theorem neverStranded_activate (h : NeverStranded s) {alloc : A → Bool}
    (memory : (s.vap v).bridgeWds → ∀ p ∈ (s.vap v).peersList, alloc p.addr) :
    NeverStranded (s.step (.activate v alloc)) := by
  rw [Managers.step]
  dsimp only
  have bridge : ((s.setVap v { s.vap v with connected := true }).vap v).bridgeWds =
      (s.vap v).bridgeWds := read_setVap Vap.bridgeWds rfl
  rw [bridge]
  split
  next up =>
    rw [onIfUp_eq]
    intro w q mem
    have there : q ∈ (s.vap w).peersList := by
      rwa [read_setVap (x := { s.vap v with connected := true }) Vap.peersList rfl] at mem
    by_cases here : w = v
    · subst here
      refine ⟨fun _ _ => .inr (.inl (List.mem_append_left _ ?_)), (h w q there).busy⟩
      rw [List.mem_reverse, List.mem_map]
      exact ⟨q, List.mem_filter.2 ⟨mem, memory up q there⟩, rfl⟩
    · refine (h w q there).mono (fun up' => ?_) id (Or.imp_left (List.mem_append_right _))
      simpa [here] using up'
  next down =>
    exact h.switch (by simpa [Vap.up] using fun _ there => absurd there down) rfl

theorem neverStranded_step (h : NeverStranded s) (tidy : s.Tidy) {i : Step V A S}
    (enabled : s.Enabled i) (sustained : Sustained s i) : NeverStranded (s.step i) := by
  obtain ⟨own, sustained⟩ := sustained
  cases i with
  | usrAdd v a o => exact (neverStranded_usrAdd h sustained).note _
  | usrDel v a send => exact (neverStranded_usrDel h own).note _
  | beacon a scheduled => exact neverStranded_beacon h sustained
  | beaconTask b send => exact neverStranded_beaconTask h b send
  | connectInd v a sta send =>
    rw [Managers.step]
    split
    · exact neverStranded_connectInd h sta send
    · exact h
  | disconnectInd v a send =>
    rw [Managers.step]
    split
    next bridge => exact neverStranded_disconnectInd h bridge own
    · exact h
  | timer v a scheduled =>
    rw [Managers.step]
    split
    · exact h
    next p found =>
      rw [if_pos sustained]
      exact neverStranded_timer h found
  | timerTask v a send alloc => exact neverStranded_timerTask h tidy sustained own
  | activate v alloc => exact neverStranded_activate h sustained
  | deactivate v refused =>
    rw [Managers.step]
    split_ifs
    · exact neverStranded_onIfDown h (by simp [Vap.up]) rfl
    · exact h.switch (by simp [Vap.up]) rfl
    · exact neverStranded_onIfDown h (by simp [Vap.up]) rfl
    · exact h.switch (by simp [Vap.up]) rfl
  | isolate v => exact neverStranded_onIfDown h (by simp [Vap.up]) rfl
  | halt v => exact h.switch (by simp [Vap.up]) rfl
  | setBridge v wds => exact h.switch (by simp [Vap.up, enabled.2]) rfl
  | cleanup v =>
    refine h.down (v := v) rfl (by simp [Vap.up]) (fun _ mem => absurd mem List.not_mem_nil)
      (fun t there other => ?_) fun _ _ _ => id
    exact List.mem_filter.2 ⟨there, by simpa using other⟩
  | init v =>
    exact h.down (v := v) rfl (by simp [Vap.up]) (fun _ mem => absurd mem List.not_mem_nil)
      (fun _ there _ => there) fun _ _ _ => id

omit [DecidableEq V] [DecidableEq A] [DecidableEq S] in
theorem neverStranded_start : NeverStranded (start : Managers V A S) :=
  fun _ _ mem => absurd mem List.not_mem_nil

/-- No peer is stranded in a run in which memory and tasks are had where they are needed and no
entry of another VAP is taken along with a peer that is removed. -/
theorem peers_never_stranded (run : RunsIf Sustained s) : NeverStranded s := by
  refine (Runs.invariant (P := fun s => NeverStranded s ∧ s.Tidy) run
    ⟨neverStranded_start, tidy_start⟩ ?_).1
  rintro s i ⟨h, tidy⟩ ⟨enabled, sustained⟩
  exact ⟨neverStranded_step h tidy enabled sustained, tidy_step tidy enabled⟩

/-- A peer is added, heard, connected and deleted again. -/
theorem peers_never_stranded_deleted :
    NeverStranded (List.foldl Managers.step start (bringUp 0 ++
      [Step.usrAdd 0 7 plenty, .beacon 7 true, .beaconTask ⟨7, 0⟩ .ok, .connectInd 0 7 (some 1) .ok,
        .usrDel 0 7 .ok, .timer 0 7 true, .timerTask 0 7 .ok true]) : Managers Nat Nat Nat) :=
  peers_never_stranded (Runs.of_allowed (by decide))

/-- The firmware refuses a peer, and when it is to be tried again there is no memory. -/
def shortage : List (Step Nat Nat Nat) :=
  bringUp 0 ++ [Step.usrAdd 0 7 plenty, .beacon 7 true, .beaconTask ⟨7, 0⟩ .failed, .timer 0 7 true,
    .timerTask 0 7 .ok false]

/-- In both runs a peer is left that nothing gets on. -/
theorem peers_stranded :
    (Reached (crossing.foldl Managers.step start) ∧
      ¬ NeverStranded (crossing.foldl Managers.step start)) ∧
    (Reached (shortage.foldl Managers.step start) ∧
      ¬ NeverStranded (shortage.foldl Managers.step start)) := by
  refine ⟨⟨Runs.of_allowed (by decide), fun h => ?_⟩, ⟨Runs.of_allowed (by decide), fun h => ?_⟩⟩
  · have idle := (h 1 (peerInit 7) (by decide)).idle (by decide) (.inl rfl)
    revert idle
    unfold Timed Listed
    decide
  · have carried := h 0 ⟨7, false, false, none, false, .error⟩ (by decide)
    have idle := carried.idle (by decide) (.inr rfl)
    revert idle
    unfold Timed Listed
    decide

end Machine

end Wave300.Wds
