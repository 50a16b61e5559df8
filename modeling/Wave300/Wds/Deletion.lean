import Wave300.Wds.Reactions

/-!
# Deleting a WDS peer is final

Once the user was told that a peer is deleted, the firmware is not asked to add it and it does not
become connected until the user adds it again. A deletion that fails changes nothing.
-/

namespace Wave300.Wds

open Lib Managers

section Machine
variable {V A S : Type} [DecidableEq V] [DecidableEq A] [DecidableEq S]
  {s s' : Managers V A S} {v w : V} {p p' q : Peer A S} {a b : A} {log events : List (Event A V)}

/-- The user was told last that the peer is deleted, not that it is added. -/
def deletedIn (log : List (Event A V)) (v : V) (a : A) : Bool :=
  log.foldl (fun deleted e =>
    if e = .deleted v a then true else if e = .added v a then false else deleted) false

/-- The peer gets connected, or is about to. -/
def Revives (e : Event A V) (v : V) (a : A) : Prop := e = .request v a true ∨ e = .connected v a

/-- No peer gets connected while it is deleted. -/
def Final (log : List (Event A V)) : Prop :=
  Each (fun before e => ∀ v a, Revives e v a → deletedIn before v a = false) log

/-- The user has deleted the peer, and it goes when it has disconnected. -/
def Awaiting (p : Peer A S) : Prop := p.killOnDisconnect ∧ p.state = .disconnecting

/-- The peers that are deleted are about to go. Nothing is said of those that are skipped. -/
structure Obeyed (skip : V → A → Prop) (s : Managers V A S) : Prop where
  log : Final s.log
  pending : ∀ v, ∀ p ∈ (s.vap v).peersList, ¬ skip v p.addr →
    deletedIn s.log v p.addr → Awaiting p

omit [DecidableEq S] in
theorem deletedIn_concat (e : Event A V) : deletedIn (log ++ [e]) v a =
    if e = .deleted v a then true else if e = .added v a then false else deletedIn log v a := by
  rw [deletedIn, List.foldl_concat]
  rfl

/-- Events that do not change what is deleted, and do not concern what is. -/
def Harmless (log events : List (Event A V)) : Prop :=
  ∀ e ∈ events, ∀ v a,
    e ≠ .deleted v a ∧ e ≠ .added v a ∧ (Revives e v a → deletedIn log v a = false)

omit [DecidableEq S] in
theorem Harmless.keeps (h : Harmless log events) (v : V) (a : A) :
    deletedIn (log ++ events) v a = deletedIn log v a := by
  induction events using List.reverseRecOn with
  | nil => rw [List.append_nil]
  | append_singleton events e ih =>
    obtain ⟨notDeleted, notAdded, -⟩ :=
      h e (List.mem_append_right _ (List.mem_singleton_self e)) v a
    rw [← List.append_assoc, deletedIn_concat, if_neg notDeleted, if_neg notAdded]
    exact ih fun e mem => h e (List.mem_append_left _ mem)

omit [DecidableEq S] in
theorem Harmless.final (h : Harmless log events) (before : Final log) :
    Final (log ++ events) := by
  induction events using List.reverseRecOn with
  | nil => rwa [List.append_nil]
  | append_singleton events e ih =>
    have shorter : Harmless log events := fun e mem => h e (List.mem_append_left _ mem)
    rw [← List.append_assoc]
    apply Each.concat (ih shorter)
    intro v a revives
    rw [shorter.keeps]
    exact (h e (List.mem_append_right _ (List.mem_singleton_self e)) v a).2.2 revives

variable {skip skip' : V → A → Prop}

omit [DecidableEq S] in
theorem Obeyed.note (h : Obeyed skip s) (harmless : Harmless s.log events) :
    Obeyed skip (s.note events) where
  log := harmless.final h.log
  pending v p mem other deleted :=
    h.pending v p mem other (by rwa [← harmless.keeps])

omit [DecidableEq S] in
theorem Obeyed.mono (h : Obeyed skip s) (log : s'.log = s.log)
    (peers : ∀ v, ∀ p ∈ (s'.vap v).peersList, ¬ skip' v p.addr →
      p ∈ (s.vap v).peersList ∧ ¬ skip v p.addr) : Obeyed skip' s' where
  log := log ▸ h.log
  pending v p mem other deleted := by
    obtain ⟨there, other'⟩ := peers v p mem other
    exact h.pending v p there other' (log ▸ deleted)

omit [DecidableEq S] in
theorem Obeyed.put (h : Obeyed (Only v p.addr) s)
    (here : deletedIn s.log v p.addr → Awaiting p) : Obeyed NoPeer (s.put v p) where
  log := h.log
  pending w q mem _ deleted := by
    obtain ⟨rfl, rfl⟩ | ⟨there, other⟩ := mem_put mem
    · exact here deleted
    · exact h.pending w q there (fun ⟨same, addr⟩ => other same addr) deleted

omit [DecidableEq V] [DecidableEq A] [DecidableEq S] in
/-- A peer that is about to go stays as it is or goes. -/
theorem Awaiting.next {action : Action} (h : Awaiting p) (next : peerNext p action = some p') :
    p' = p := by
  obtain ⟨kill, state⟩ := h
  cases action <;> simp [peerNext, state, kill] at next <;> exact next.symm

theorem Obeyed.fsm {action : Action} (h : Obeyed (Only v p.addr) s)
    (here : deletedIn s.log v p.addr → Awaiting p) : Obeyed NoPeer (peerFsm v p action s) := by
  unfold peerFsm
  split
  · refine h.mono rfl fun w q mem _ => ?_
    obtain ⟨there, other⟩ := mem_peerRemoveDelete.1 mem
    exact ⟨there, fun ⟨same, addr⟩ => other same addr⟩
  next p' next' =>
    have addr : p'.addr = p.addr := by rw [(peerNext_some next').1]
    have stays : Obeyed NoPeer (s.put v p') := by
      apply Obeyed.put (addr ▸ h)
      intro deleted
      rw [addr] at deleted
      rw [(here deleted).next next']
      exact here deleted
    apply stays.note
    intro e mem w b
    split at mem
    next connects =>
      obtain rfl := List.mem_singleton.1 mem
      refine ⟨nofun, nofun, fun revives => ?_⟩
      obtain ⟨rfl, rfl⟩ : v = w ∧ p.addr = b := by simpa [Revives] using revives
      by_contra deleted
      have awaiting := here (Bool.eq_true_of_not_eq_false deleted)
      rw [awaiting.next next', awaiting.2] at connects
      exact absurd connects.2 nofun
    · exact absurd mem List.not_mem_nil

/-- No peer is deleted while it is connecting, none whose deletion the firmware refuses, and until a
deleted peer is gone, its interface stays up and no beacon of it is acted on. -/
def Honoured (s : Managers V A S) : Step V A S → Prop
  | .usrDel v a send => ∀ p ∈ s.find v a,
    (lets p send → p.state ≠ .connecting) ∧ (¬ lets p send → p.killOnDisconnect)
  | .beaconTask b send => send ≠ .noMsg → ∀ p ∈ s.find b.vapId b.addr, ¬ Awaiting p
  | .deactivate v _ => (s.vap v).bridgeWds → ∀ p ∈ (s.vap v).peersList, ¬ Awaiting p
  | .isolate v => ∀ p ∈ (s.vap v).peersList, ¬ Awaiting p
  | _ => True

omit [DecidableEq S] in
theorem Obeyed.weaken (h : Obeyed NoPeer s) : Obeyed skip s :=
  h.mono rfl fun _ _ mem _ => ⟨mem, id⟩

omit [DecidableEq V] [DecidableEq A] [DecidableEq S] in
theorem mem_sent {e : Event A V} {add : Bool} {send : Send} (mem : e ∈ sent v a add send) :
    send ≠ .noMsg ∧ e = .request v a add := by
  unfold sent at mem
  split at mem
  · exact absurd mem List.not_mem_nil
  next there => exact ⟨there, List.mem_singleton.1 mem⟩

omit [DecidableEq S] in
theorem harmless_sent {send : Send} : Harmless log (sent v a false send) := by
  intro e mem w b
  obtain ⟨-, rfl⟩ := mem_sent mem
  exact ⟨nofun, nofun, fun revives => by simp [Revives] at revives⟩

omit [DecidableEq S] in
theorem harmless_asked {send : Send} : Harmless log (asked v p send) := by
  unfold asked
  split
  · exact harmless_sent
  · exact fun e mem => absurd mem List.not_mem_nil

omit [DecidableEq V] [DecidableEq A] [DecidableEq S] in
/-- A peer that is deleted and was not connecting is gone, or about to go. -/
theorem awaiting_of_deleted (next : peerNext p .disconnect = some p')
    (notConnecting : p.state ≠ .connecting) (kill : p.killOnDisconnect) : Awaiting p' := by
  cases state : p.state
  case connecting => exact absurd state notConnecting
  all_goals
    simp [peerNext, state, kill] at next
  rw [← next]
  exact ⟨rfl, rfl⟩

theorem obeyed_usrDel (h : Obeyed NoPeer s) {send : Send}
    (honoured : Honoured s (.usrDel v a send)) :
    Obeyed NoPeer (s.step (.usrDel v a send)) := by
  change Obeyed NoPeer ((usrDelPeerAp v a send s).1.note
    (if (usrDelPeerAp v a send s).2 = .ok then [.deleted v a] else []))
  cases found : s.find v a with
  | none =>
    have none : usrDelPeerAp v a send s = (s, .noEntry) := by rw [usrDelPeerAp, found]
    rw [none]
    simpa using h
  | some p =>
    obtain ⟨there, rfl⟩ := findKey_some found
    obtain ⟨notConnecting, kill⟩ := honoured p found
    have asked' : Obeyed _ (s.note (asked v p send)) := h.note harmless_asked
    have pending : ∀ k, deletedIn (s.note (asked v p send)).log v p.addr →
        Awaiting { p with killOnDisconnect := true, fwPeerStaAdded := k } :=
      fun _ deleted => ⟨rfl, (asked'.pending v p there id deleted).2⟩
    by_cases lets' : lets p send
    · rw [if_pos ((usrDelPeerAp_ok found).2 lets'), usrDelPeerAp_found found, if_pos lets']
      dsimp only
      have gone : Obeyed NoPeer (peerFsm v
          { p with killOnDisconnect := true, fwPeerStaAdded := false } .disconnect
          (s.note (asked v p send))) := Obeyed.fsm asked'.weaken (pending false)
      refine ⟨gone.log.concat fun w b revives => by simp [Revives] at revives, ?_⟩
      intro w q mem _ deleted
      rw [note_log, deletedIn_concat] at deleted
      split at deleted
      next same =>
        obtain ⟨rfl, addr⟩ := Event.deleted.inj same
        obtain ⟨-, next⟩ | ⟨-, other⟩ := mem_peerFsm mem
        · exact awaiting_of_deleted next (notConnecting lets') rfl
        · exact absurd addr.symm (other rfl)
      · rw [if_neg (by rintro ⟨⟩)] at deleted
        exact gone.pending w q mem id deleted
    · rw [if_neg (mt (usrDelPeerAp_ok found).1 lets'), usrDelPeerAp_found found, if_neg lets',
        note_nil]
      exact Obeyed.put asked'.weaken (pending p.fwPeerStaAdded)

theorem obeyed_usrAdd (h : Obeyed NoPeer s) (o : Adding) :
    Obeyed NoPeer (s.step (.usrAdd v a o)) := by
  change Obeyed NoPeer ((usrAddPeerAp v a o s).1.note
    (if (usrAddPeerAp v a o s).2 = .ok then [.added v a] else []))
  obtain ⟨res, fails, same⟩ | ⟨absent, same⟩ := usrAddPeerAp_cases s v a o
  · rw [same, if_neg fails, note_nil]
    exact h
  · rw [same, if_pos rfl]
    dsimp only
    have log : (if (s.vap v).connected ∧ o.onBeacon then
          { s.push v (peerInit a) with onBeaconList := ⟨a, v⟩ :: s.onBeaconList }
        else s.push v (peerInit a)).log = s.log := by
      split <;> rfl
    have vap : (if (s.vap v).connected ∧ o.onBeacon then
          { s.push v (peerInit a) with onBeaconList := ⟨a, v⟩ :: s.onBeaconList }
        else s.push v (peerInit a)).vap = (s.push v (peerInit a)).vap := by
      split <;> rfl
    refine ⟨?_, fun w q mem _ deleted => ?_⟩
    · rw [note_log, log]
      exact h.log.concat fun w b revives => by simp [Revives] at revives
    · rw [note_log, log, deletedIn_concat, if_neg nofun] at deleted
      rw [note_vap, vap] at mem
      split at deleted
      · exact absurd deleted nofun
      next other =>
        obtain ⟨rfl, rfl⟩ | there := mem_push mem
        · exact absurd rfl other
        · exact h.pending w q there id deleted

theorem obeyed_beaconTask (h : Obeyed NoPeer s) {b : OnBeacon A V} {send : Send}
    (honoured : Honoured s (.beaconTask b send)) :
    Obeyed NoPeer (s.step (.beaconTask b send)) := by
  have erased : Obeyed NoPeer { s with beaconTasks := s.beaconTasks.erase b } := h.mono rfl
    fun _ _ mem _ => ⟨mem, id⟩
  obtain ⟨-, same⟩ | ⟨p, found, same⟩ := onBeaconProc_cases b send
    { s with beaconTasks := s.beaconTasks.erase b }
  · rwa [Managers.step, same]
  · rw [Managers.step, same]
    obtain ⟨there, is⟩ := findKey_some found
    have alive : send ≠ .noMsg → deletedIn s.log b.vapId b.addr = false := by
      intro sends
      by_contra deleted
      exact honoured sends p found
        (h.pending _ p there id (is.symm ▸ Bool.eq_true_of_not_eq_false deleted))
    have harmless : Harmless s.log (sent b.vapId b.addr true send) := by
      intro e mem w c
      obtain ⟨sends, rfl⟩ := mem_sent mem
      refine ⟨(by rintro ⟨⟩), (by rintro ⟨⟩), fun revives => ?_⟩
      obtain ⟨rfl, rfl⟩ : b.vapId = w ∧ b.addr = c := by simpa [Revives] using revives
      exact alive sends
    have fst := sendFwCfgPeerAp_fst true send p
    refine Obeyed.fsm (erased.note harmless).weaken fun deleted => ?_
    rw [fst] at deleted ⊢
    exact (erased.note harmless).pending _ p there id deleted

theorem obeyed_connectInd (h : Obeyed NoPeer s) (sta : Option S) (send : Send) :
    Obeyed NoPeer (peerConnect v a sta send s) := by
  rw [peerConnect]
  cases found : s.find v a with
  | none => exact h
  | some p =>
    obtain ⟨there, rfl⟩ := findKey_some found
    cases sta with
    | some sta =>
      have kept : Obeyed NoPeer (s.incref v p.addr sta) := h.mono rfl fun w q mem _ => by
        rw [incref, peersList_setHeld] at mem
        exact ⟨mem, id⟩
      exact Obeyed.fsm (p := { p with sta := some sta }) kept.weaken (h.pending v p there id)
    | none =>
      have kept : Obeyed _ (s.note (sent v p.addr false send)) := h.note harmless_sent
      refine Obeyed.fsm kept.weaken fun deleted => ?_
      rw [sendFwCfgPeerAp_fst] at deleted ⊢
      exact kept.pending v p there id deleted

theorem obeyed_disconnectInd (h : Obeyed NoPeer s) (send : Send) :
    Obeyed NoPeer (peerDisconnect v a send s).1 := by
  cases found : s.find v a with
  | none => rwa [peerDisconnect, found]
  | some p =>
    obtain ⟨there, rfl⟩ := findKey_some found
    rw [peerDisconnect_found found]
    have kept : Obeyed NoPeer (s.setHeld v (decref (s.vap v).held p)) :=
      h.mono rfl fun w q mem _ => by
        rw [peersList_setHeld] at mem
        exact ⟨mem, id⟩
    have asked' : Obeyed NoPeer ((s.setHeld v (decref (s.vap v).held p)).note (asked v p send)) :=
      kept.note harmless_asked
    have mem :
        p ∈ (((s.setHeld v (decref (s.vap v).held p)).note (asked v p send)).vap v).peersList := by
      rwa [note_vap, peersList_setHeld]
    have pending := asked'.pending v p mem id
    dsimp only
    split
    · exact Obeyed.fsm (p := { p with sta := none, fwPeerStaAdded := false }) asked'.weaken pending
    · exact Obeyed.put (p := { p with sta := none }) asked'.weaken pending

theorem obeyed_timerTask (h : Obeyed NoPeer s) (send : Send) (alloc : Bool) :
    Obeyed NoPeer (peerFsmTimer v a send alloc s) := by
  have listed : Obeyed NoPeer (onBeaconCreateAdd v a alloc s).1 := by
    unfold onBeaconCreateAdd
    split
    · exact h.mono rfl fun _ _ mem _ => ⟨mem, id⟩
    · exact h
  rw [peerFsmTimer]
  cases found : s.find v a with
  | none => exact h
  | some p =>
    obtain ⟨there, rfl⟩ := findKey_some found
    dsimp only
    split
    · have kept : Obeyed _ (s.note (sent v p.addr false send)) := h.note harmless_sent
      refine Obeyed.fsm kept.weaken fun deleted => ?_
      rw [sendFwCfgPeerAp_fst] at deleted ⊢
      exact kept.pending v p there id deleted
    · exact Obeyed.fsm h.weaken (h.pending v p there id)
    · exact listed
    · exact listed
    · exact h

omit [DecidableEq S] in
/-- What is done to a VAP that leaves its peers as they are, or takes them. -/
theorem Obeyed.switch (h : Obeyed NoPeer s) {x : Vap A S}
    (peers : ∀ p ∈ x.peersList, p ∈ (s.vap v).peersList) : Obeyed NoPeer (s.setVap v x) := by
  refine h.mono rfl fun w q mem _ => ⟨?_, id⟩
  by_cases here : w = v
  · subst here
    exact peers q (by simpa using mem)
  · simpa [here] using mem

theorem obeyed_onIfDown (h : Obeyed NoPeer s) {x : Vap A S}
    (peers : x.peersList = ((onIfDown v s).vap v).peersList)
    (none : ∀ p ∈ (s.vap v).peersList, ¬ Awaiting p) :
    Obeyed NoPeer ((onIfDown v s).setVap v x) where
  log := h.log
  pending w q mem _ deleted := by
    by_cases here : w = v
    · subst here
      rw [setVap_vap, Function.update_self, peers] at mem
      obtain ⟨p, there, rfl⟩ := List.mem_map.1
        (show q ∈ (s.vap w).peersList.map _ by simpa [onIfDown] using mem)
      exact absurd (h.pending w p there id deleted) (none p there)
    · refine h.pending w q ?_ id deleted
      simpa [onIfDown, here] using mem

theorem obeyed_step (h : Obeyed NoPeer s) {i : Step V A S} (honoured : Honoured s i) :
    Obeyed NoPeer (s.step i) := by
  cases i with
  | usrAdd v a o => exact obeyed_usrAdd h o
  | usrDel v a send => exact obeyed_usrDel h honoured
  | beacon a scheduled => exact h.mono rfl fun _ _ mem _ => ⟨mem, id⟩
  | beaconTask b send => exact obeyed_beaconTask h honoured
  | connectInd v a sta send =>
    rw [Managers.step]
    split
    · exact obeyed_connectInd h sta send
    · exact h
  | disconnectInd v a send =>
    rw [Managers.step]
    split
    · exact obeyed_disconnectInd h send
    · exact h
  | timer v a scheduled =>
    rw [Managers.step]
    split
    · exact h
    next p found =>
      obtain ⟨there, rfl⟩ := findKey_some found
      have kept := Obeyed.put (p := { p with fsmTimer := false }) h.weaken (h.pending v p there id)
      exact kept.mono rfl fun _ _ mem _ => ⟨mem, id⟩
  | timerTask v a send alloc =>
    apply obeyed_timerTask
    exact h.mono rfl fun _ _ mem _ => ⟨mem, id⟩
  | activate v alloc =>
    have kept : Obeyed NoPeer (s.setVap v { s.vap v with connected := true }) :=
      h.switch fun _ => id
    rw [Managers.step]
    dsimp only
    split
    · rw [onIfUp_eq]
      exact kept.mono rfl fun _ _ mem _ => ⟨mem, id⟩
    · exact kept
  | deactivate v refused =>
    rw [Managers.step]
    split_ifs with _ bridge bridge
    · exact obeyed_onIfDown h rfl (honoured bridge)
    · exact h.switch fun _ => id
    · exact obeyed_onIfDown h rfl (honoured bridge)
    · exact h.switch fun _ => id
  | isolate v => exact obeyed_onIfDown h rfl honoured
  | halt v => exact h.switch fun _ => id
  | setBridge v wds => exact h.switch fun _ => id
  | cleanup v =>
    have kept := h.switch (v := v) (x := { s.vap v with present := false, peersList := [] })
      (fun _ mem => absurd mem List.not_mem_nil)
    exact kept.mono rfl fun _ _ mem _ => ⟨mem, id⟩
  | init v => exact h.switch fun _ mem => absurd mem List.not_mem_nil

/-- A deletion that fails is only seen, if the peer was marked to be killed before. Otherwise it
leaves the mark. -/
theorem usrDelPeerAp_failed (tidy : s.Tidy) {send : Send}
    (fails : (usrDelPeerAp v a send s).2 ≠ .ok) :
    (∃ events, (usrDelPeerAp v a send s).1 = s.note events) ↔
      ∀ p ∈ s.find v a, p.killOnDisconnect := by
  cases found : s.find v a with
  | none =>
    have none : usrDelPeerAp v a send s = (s, .noEntry) := by rw [usrDelPeerAp, found]
    rw [none]
    exact iff_of_true ⟨[], (note_nil s).symm⟩ fun _ mem => absurd mem (Option.not_mem_none _)
  | some p =>
    obtain ⟨there, rfl⟩ := findKey_some found
    rw [usrDelPeerAp_found found, if_neg (mt (usrDelPeerAp_ok found).2 fails)]
    constructor
    · rintro ⟨events, same⟩ q ⟨⟩
      have kept : p ∈ (((s.note (asked v p send)).put v
          { p with killOnDisconnect := true }).vap v).peersList := by
        rw [show (s.note (asked v p send)).put v { p with killOnDisconnect := true } =
          s.note events from same]
        exact there
      obtain ⟨-, is⟩ | ⟨-, other⟩ := mem_put kept
      · rw [is]
      · exact absurd rfl (other rfl)
    · intro kill
      have same : { p with killOnDisconnect := true } = p := by rw [← kill p rfl]
      rw [same]
      exact ⟨_, Managers.Tidy.put_self tidy there⟩

omit [DecidableEq S] in
theorem obeyed_start : Obeyed NoPeer (start : Managers V A S) :=
  ⟨Each.nil, fun _ _ mem => absurd mem List.not_mem_nil⟩

/-- A deletion that succeeded is final, if no peer is deleted while it is connecting and none that
is deleted but not yet gone is heard or sees its interface go down; and one that failed changes
nothing exactly if the peer was marked before. -/
theorem deletion_final (run : RunsIf Honoured s) : Final s.log ∧
    ∀ v a send, (usrDelPeerAp v a send s).2 ≠ .ok →
      ((∃ events, (usrDelPeerAp v a send s).1 = s.note events) ↔
        ∀ p ∈ s.find v a, p.killOnDisconnect) := by
  have obeyed : Obeyed NoPeer s :=
    run.invariant obeyed_start fun _ _ h allowed => obeyed_step h allowed.2
  exact ⟨obeyed.log, fun v a send fails => usrDelPeerAp_failed (tidy_run run) fails⟩

instance (p : Peer A S) : Decidable (Awaiting p) := inferInstanceAs (Decidable (_ ∧ _))

instance (s : Managers V A S) : DecidablePred (Honoured s)
  | .usrDel v a _ => inferInstanceAs (Decidable (∀ p ∈ s.find v a, _ ∧ _))
  | .beaconTask b _ => inferInstanceAs (Decidable (_ → ∀ p ∈ s.find b.vapId b.addr, _))
  | .deactivate v _ => inferInstanceAs (Decidable (_ → ∀ p ∈ (s.vap v).peersList, _))
  | .isolate v => inferInstanceAs (Decidable (∀ p ∈ (s.vap v).peersList, _))
  | .usrAdd .. | .beacon .. | .timer .. | .timerTask .. | .activate .. | .connectInd ..
  | .disconnectInd .. | .halt .. | .setBridge .. | .cleanup .. | .init .. => .isTrue trivial

/-- A peer is connected and deleted, and its interface goes down when it is gone. -/
theorem deletion_final_connected :
    Final (List.foldl Managers.step start (bringUp 0 ++
      [Step.usrAdd 0 7 plenty, .beacon 7 true, .beaconTask ⟨7, 0⟩ .ok, .connectInd 0 7 (some 1) .ok,
        .usrDel 0 7 .ok, .timer 0 7 true, .timerTask 0 7 .ok true, .deactivate 0 false]) :
        Managers Nat Nat Nat).log :=
  (deletion_final (Runs.of_allowed (by decide))).1

/-- A peer is deleted while it is connecting. -/
def connecting : List (Step Nat Nat Nat) :=
  bringUp 0 ++ [Step.usrAdd 0 7 plenty, .beacon 7 true, .beaconTask ⟨7, 0⟩ .ok, .usrDel 0 7 .ok,
    .timer 0 7 true, .timerTask 0 7 .ok true, .beacon 7 true, .beaconTask ⟨7, 0⟩ .ok,
    .connectInd 0 7 (some 1) .ok]

/-- It disconnects, which the firmware does not confirm in time. -/
def disconnects : List (Step Nat Nat Nat) :=
  [.disconnectInd 0 7 .ok, .timer 0 7 true, .timerTask 0 7 .ok true]

/-- A peer that is deleted while it is connecting is added to the firmware again and becomes
connected. A connected peer that the firmware refuses to let go is removed when it next disconnects,
and it is not if the user had not asked. -/
theorem deletion_not_final :
    (Reached (connecting.foldl Managers.step start) ∧
      ¬ Final (connecting.foldl Managers.step start).log) ∧
    (usrDelPeerAp 0 7 .failed (once.foldl Managers.step start)).2 ≠ .ok ∧
    (Reached ((once ++ .usrDel 0 7 .failed :: disconnects).foldl Managers.step start) ∧
      (((once ++ .usrDel 0 7 .failed :: disconnects).foldl Managers.step start).vap
        0).peersList = []) ∧
    (Reached ((once ++ disconnects).foldl Managers.step start) ∧
      (((once ++ disconnects).foldl Managers.step start).vap 0).peersList ≠ []) := by
  refine ⟨⟨Runs.of_allowed (by decide), fun final => ?_⟩, by decide,
    ⟨Runs.of_allowed (by decide), by decide⟩, Runs.of_allowed (by decide), by decide⟩
  have alive := final [.added 0 7, .request 0 7 true, .request 0 7 false, .deleted 0 7]
    (.request 0 7 true) [.connected 0 7] (by decide) 0 7 (.inl rfl)
  exact absurd alive (by decide)

end Machine

end Wave300.Wds
