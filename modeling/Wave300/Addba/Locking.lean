import Wave300.Addba.Tid
import Wave300.Lib.Locks

/-!
# The locks of ADDBA and TXMM

What the entry points of `addba.c` and the confirmations of `txmm.c` do to the locks they
share: the lock of the ADDBA object of a VAP, the lock of TXMM, and the lock of each message.
What the code does between taking and giving up a lock is left out; the branches that decide
which locks are taken are arguments.
-/

namespace Wave300.Addba.Locking

open Wave300.Lib

/-- A TID has a message for its TX side and one for its RX side. -/
inductive Side where
  | tx
  | rx
  deriving DecidableEq, Repr

structure Msg (π : Type) where
  peer : π
  tid : Fin nofTids
  side : Side
  deriving DecidableEq

inductive Lock (π ν : Type) where
  | addba (v : ν)
  | txmm
  | msg (m : Msg π)
  deriving DecidableEq

variable {π ν : Type}

/-! ## TXMM -/

/-- `mtlk_txmm_msg_get_empty_data`; `free` says whether the message is attached to nothing. -/
def msgGetEmptyData (m : Msg π) (free : Bool) : List (Act (Lock π ν)) :=
  locked (Lock.msg m) [] ++ if free then locked Lock.txmm (locked (.msg m) []) else []

/-- `mtlk_txmm_msg_cancel` -/
def msgCancel (m : Msg π) (attached : Bool) : List (Act (Lock π ν)) :=
  locked (Lock.msg m) [] ++ if attached then locked Lock.txmm (locked (.msg m) []) else []

/-- `_mtlk_txmm_send_ex` -/
def sendEx : List (Act (Lock π ν)) := locked .txmm []

/-- `mtlk_txmm_msg_send` -/
def msgSend (m : Msg π) (failed attached : Bool) : List (Act (Lock π ν)) :=
  sendEx ++ if failed then msgCancel m attached else []

/-- `_mtlk_txmm_call_usr_clb_locked`. A message that has been cancelled has no `data`. -/
def callUsrClbLocked (m : Msg π) (data : Bool) (clb : List (Act (Lock π ν))) :
    List (Act (Lock π ν)) :=
  locked .txmm (locked (.msg m) (if data then clb else []))

/-! ## Callbacks -/

/-- The callbacks that the messages of ADDBA are sent with. -/
inductive Clb where
  | delbaReqTxCfm
  | closeAggrCfm
  | openAggrCfm
  | addbaReqTxCfm
  | addbaResTxCfm
  deriving DecidableEq, Repr

/-- The callbacks of the TX side take the lock to change the state. -/
def Clb.acts (v : ν) : Clb → List (Act (Lock π ν))
  | delbaReqTxCfm => []
  | closeAggrCfm => locked (.addba v) []
  | openAggrCfm => locked (.addba v) []
  | addbaReqTxCfm => locked (.addba v) []
  | addbaResTxCfm => []

/-! ## Entry points -/

/-- What TXMM answers when a message is sent: whether it was attached to nothing, whether it
got a block that is sent, whether that failed, and whether it was then still attached. -/
structure Answer where
  free : Bool
  data : Bool
  failed : Bool
  attached : Bool

/-- `mtlk_txmm_msg_get_empty_data` and `mtlk_txmm_msg_send`, when the code comes to them. -/
def request (m : Msg π) : Option Answer → List (Act (Lock π ν))
  | none => []
  | some a => msgGetEmptyData m a.free ++ if a.data then msgSend m a.failed a.attached else []

/-- `_mtlk_addba_peer_tx_addba_req` -/
def txAddbaReq (p : π) (t : Fin nofTids) (answer : Option Answer) : List (Act (Lock π ν)) :=
  request ⟨p, t, .tx⟩ answer

/-- `_mtlk_addba_peer_close_aggr_req` -/
def closeAggrReq (p : π) (t : Fin nofTids) (answer : Option Answer) : List (Act (Lock π ν)) :=
  request ⟨p, t, .tx⟩ answer

/-- The `OPEN_AGGR` request of `mtlk_addba_peer_on_addba_res_rx`. -/
def openAggrReq (p : π) (t : Fin nofTids) (answer : Option Answer) : List (Act (Lock π ν)) :=
  request ⟨p, t, .tx⟩ answer

/-- `_mtlk_addba_peer_send_delba_req` -/
def sendDelbaReq (p : π) (t : Fin nofTids) (answer : Option Answer) : List (Act (Lock π ν)) :=
  request ⟨p, t, .rx⟩ answer

/-- `_mtlk_addba_peer_send_rx_addba_res` -/
def sendRxAddbaRes (p : π) (t : Fin nofTids) (answer : Option Answer) : List (Act (Lock π ν)) :=
  request ⟨p, t, .rx⟩ answer

/-- `_mtlk_addba_peer_stop`. The messages are cancelled without the lock. -/
def stop (v : ν) (p : π) (attached : Msg π → Bool) : List (Act (Lock π ν)) :=
  (List.finRange nofTids).flatMap fun t =>
    locked (Lock.addba v) [] ++ msgCancel ⟨p, t, .tx⟩ (attached ⟨p, t, .tx⟩) ++
      locked (Lock.addba v) [] ++ msgCancel ⟨p, t, .rx⟩ (attached ⟨p, t, .rx⟩) ++
        locked (Lock.addba v) []

/-- The calls that threads make. Those that return before any lock is taken are left out. -/
inductive Call (π ν : Type) where
  | reconfigure (v : ν)
  | peerStart (p : π) (attached : Msg π → Bool)
  | peerStop (p : π) (attached : Msg π → Bool)
  | peerCleanup (p : π) (attached : Msg π → Bool)
  | startAggrNegotiation (p : π) (t : Fin nofTids) (request : Option Answer)
  | resetPowerSave (p : π)
  | status (p : π)
  | delbaReqRx (p : π) (t : Fin nofTids) (close : Option Answer)
  | addbaResRx (p : π) (t : Fin nofTids) («open» : Option Answer)
  | addbaReqRx (p : π) (t : Fin nofTids) (response : Option Answer)
  | baTxStatusDelbaReq (p : π) (t : Fin nofTids) (delba : Option Answer)
  | baTxStatusAddbaRes (p : π) (t : Fin nofTids) (response : Option Answer)
  | bar (p : π) (t : Fin nofTids) (delba : Option Answer)
  | qosWithoutReord (p : π) (t : Fin nofTids) (delba : Option Answer)
  | delbaReq (p : π) (t : Fin nofTids) (close delba : Option Answer)
  | delbaReqAll (p : π) (close delba : Fin nofTids → Option Answer)
  | iterate (p : π) (delba : Fin nofTids → Option Answer)
  | pump
  | onCfm (found : Option (Msg π × Clb)) (data : Bool)
  | restore (sent : List (Msg π × Clb)) (data : Msg π → Bool)

def Call.acts (home : π → ν) : Call π ν → List (Act (Lock π ν))
  | reconfigure v => locked (.addba v) []
  | peerStart p attached => stop (home p) p attached
  | peerStop p attached => stop (home p) p attached
  | peerCleanup p attached =>
    ((List.finRange nofTids).flatMap fun t => msgCancel ⟨p, t, .rx⟩ (attached ⟨p, t, .rx⟩)) ++
      (List.finRange nofTids).flatMap fun t => msgCancel ⟨p, t, .tx⟩ (attached ⟨p, t, .tx⟩)
  | startAggrNegotiation p t request => locked (.addba (home p)) (txAddbaReq p t request)
  | resetPowerSave p => locked (.addba (home p)) []
  | status p => locked (.addba (home p)) []
  | delbaReqRx p t close => locked (.addba (home p)) (closeAggrReq p t close)
  | addbaResRx p t «open» => locked (.addba (home p)) (openAggrReq p t «open»)
  | addbaReqRx p t response => locked (.addba (home p)) (sendRxAddbaRes p t response)
  | baTxStatusDelbaReq p t delba => locked (.addba (home p)) (sendDelbaReq p t delba)
  | baTxStatusAddbaRes p t response => locked (.addba (home p)) (sendRxAddbaRes p t response)
  | bar p t delba => locked (.addba (home p)) (sendDelbaReq p t delba)
  | qosWithoutReord p t delba => locked (.addba (home p)) (sendDelbaReq p t delba)
  | delbaReq p t close delba =>
    locked (.addba (home p)) (closeAggrReq p t close ++ sendDelbaReq p t delba)
  | delbaReqAll p close delba => (List.finRange nofTids).flatMap fun t =>
    locked (.addba (home p)) (closeAggrReq p t (close t) ++ sendDelbaReq p t (delba t))
  | iterate p delba =>
    ((List.finRange nofTids).flatMap fun t =>
      locked (.addba (home p)) (sendDelbaReq p t (delba t))) ++
      (List.finRange nofTids).flatMap fun _ => locked (.addba (home p)) []
  | pump => locked .txmm []
  | onCfm none _ => locked .txmm []
  | onCfm (some (m, clb)) data =>
    locked .txmm [] ++ callUsrClbLocked m data (clb.acts (home m.peer))
  | restore sent data => sent.flatMap fun b =>
    callUsrClbLocked b.1 (data b.1) (b.2.acts (home b.1.peer))

/-! ## Nesting -/

/-- On top of which locks a lock is taken. The lock of ADDBA is taken under that of TXMM by
the callbacks, and the lock of TXMM under that of ADDBA by everything else. -/
inductive Order : List (Lock π ν) → Lock π ν → Prop where
  | addba (v) : Order [] (.addba v)
  | callback (m v) : Order [.msg m, .txmm] (.addba v)
  | txmm : Order [] .txmm
  | txmmIn (v) : Order [.addba v] .txmm
  | msg (m) : Order [] (.msg m)
  | msgIn (v m) : Order [.addba v] (.msg m)
  | block (m) : Order [.txmm] (.msg m)
  | blockIn (v m) : Order [.txmm, .addba v] (.msg m)

/-- Where the functions of TXMM are called: with no lock, or with that of ADDBA. -/
inductive Outer : List (Lock π ν) → Prop where
  | none : Outer []
  | addba (v) : Outer [.addba v]

section
variable {held : List (Lock π ν)} (outer : Outer held)
include outer

theorem msg_balanced (m : Msg π) : Balanced Order held (locked (.msg m) []) := by
  cases outer with
  | none => exact .locked (.msg m) .nil
  | addba v => exact .locked (.msgIn v m) .nil

theorem block_balanced (m : Msg π) :
    Balanced Order held (locked .txmm (locked (.msg m) [])) := by
  cases outer with
  | none => exact .locked .txmm (.locked (.block m) .nil)
  | addba v => exact .locked (.txmmIn v) (.locked (.blockIn v m) .nil)

theorem sendEx_balanced : Balanced Order held sendEx := by
  cases outer with
  | none => exact .locked .txmm .nil
  | addba v => exact .locked (.txmmIn v) .nil

theorem msgCancel_balanced (m : Msg π) (attached : Bool) :
    Balanced Order held (msgCancel m attached) :=
  (msg_balanced outer m).append (block_balanced outer m).ite

theorem request_balanced (m : Msg π) (answer : Option Answer) :
    Balanced Order held (request m answer) := by
  cases answer with
  | none => exact .nil
  | some a =>
    have got : Balanced Order held (msgGetEmptyData m a.free) :=
      (msg_balanced outer m).append (block_balanced outer m).ite
    exact got.append (((sendEx_balanced outer).append (msgCancel_balanced outer m _).ite).ite)

end

theorem addba_balanced (v : ν) {body : List (Act (Lock π ν))}
    (inner : Balanced Order [.addba v] body) : Balanced Order [] (locked (.addba v) body) :=
  .locked (.addba v) inner

theorem stop_balanced (v : ν) (p : π) (attached : Msg π → Bool) :
    Balanced Order [] (stop v p attached) := by
  have reset : Balanced Order [] (locked (Lock.addba (π := π) v) []) := addba_balanced v .nil
  apply Balanced.flatMap
  intro t
  exact (((reset.append (msgCancel_balanced .none _ _)).append reset).append
    (msgCancel_balanced .none _ _)).append reset

theorem callUsrClbLocked_balanced (m : Msg π) (data : Bool) (clb : Clb) (v : ν) :
    Balanced Order [] (callUsrClbLocked m data (clb.acts v)) := by
  refine .locked .txmm (.locked (.block m) (.ite ?_))
  cases clb with
  | delbaReqTxCfm | addbaResTxCfm => exact .nil
  | closeAggrCfm | openAggrCfm | addbaReqTxCfm => exact .locked (.callback m v) .nil

theorem acts_nested (home : π → ν) (c : Call π ν) : Nested Order [] (c.acts home) := by
  have under (p : π) := Outer.addba (π := π) (home p)
  apply Balanced.nested
  cases c with
  | reconfigure v => exact addba_balanced v .nil
  | peerStart p attached => exact stop_balanced _ p attached
  | peerStop p attached => exact stop_balanced _ p attached
  | peerCleanup p attached =>
    exact Balanced.append (.flatMap fun t => msgCancel_balanced .none _ _)
      (.flatMap fun t => msgCancel_balanced .none _ _)
  | startAggrNegotiation p t answer => exact addba_balanced _ (request_balanced (under p) _ answer)
  | resetPowerSave p => exact addba_balanced _ .nil
  | status p => exact addba_balanced _ .nil
  | delbaReqRx p t answer => exact addba_balanced _ (request_balanced (under p) _ answer)
  | addbaResRx p t answer => exact addba_balanced _ (request_balanced (under p) _ answer)
  | addbaReqRx p t answer => exact addba_balanced _ (request_balanced (under p) _ answer)
  | baTxStatusDelbaReq p t answer => exact addba_balanced _ (request_balanced (under p) _ answer)
  | baTxStatusAddbaRes p t answer => exact addba_balanced _ (request_balanced (under p) _ answer)
  | bar p t answer => exact addba_balanced _ (request_balanced (under p) _ answer)
  | qosWithoutReord p t answer => exact addba_balanced _ (request_balanced (under p) _ answer)
  | delbaReq p t close delba =>
    exact addba_balanced _
      ((request_balanced (under p) _ close).append (request_balanced (under p) _ delba))
  | delbaReqAll p close delba =>
    apply Balanced.flatMap
    intro t
    exact addba_balanced _
      ((request_balanced (under p) _ (close t)).append (request_balanced (under p) _ (delba t)))
  | iterate p delba =>
    refine Balanced.append (.flatMap fun t => ?_) (.flatMap fun t => addba_balanced _ .nil)
    exact addba_balanced _ (request_balanced (under p) _ (delba t))
  | pump => exact sendEx_balanced .none
  | onCfm found data =>
    cases found with
    | none => exact sendEx_balanced .none
    | some b => exact (sendEx_balanced .none).append (callUsrClbLocked_balanced _ _ b.2 _)
  | restore sent data => exact .flatMap fun b => callUsrClbLocked_balanced _ _ b.2 _

/-! ## Deadlocks -/

/-- The order of the locks but for the callbacks. -/
def rank : Lock π ν → Nat
  | .addba _ => 0
  | .txmm => 1
  | .msg _ => 2

section
variable {τ : Type} {s : Locks τ (Lock π ν)} {t : τ}

/-- In a cycle, a callback waits for the lock of ADDBA under the lock of a message. -/
theorem callback_of_cycle (orderly : s.Orderly Order) (cycle : Relation.TransGen s.Waits t t) :
    ∃ t m v, s.held t = [.msg m, .txmm] ∧ .addba v ∈ s.next t ∧
      Relation.TransGen s.Waits t t := by
  obtain ⟨t, l, l', owned, next, le, cycle⟩ := Locks.cycle_descends cycle rank
  have mem := (orderly.owned l t).1 owned
  have order := orderly.top next
  generalize held : s.held t = locks at mem order
  cases order with
  | callback m v => exact ⟨t, m, v, held, next, cycle⟩
  | addba | txmm | msg => cases mem
  | txmmIn | msgIn | block =>
    cases List.mem_singleton.1 mem
    simp only [rank] at le
    omega
  | blockIn =>
    obtain rfl | mem := List.mem_cons.1 mem
    · simp only [rank] at le
      omega
    · cases List.mem_singleton.1 mem
      simp only [rank] at le
      omega

/-- A thread of a cycle that holds the lock of a message is in a callback. -/
theorem callback_of_msg (orderly : s.Orderly Order) {m : Msg π} (mem : .msg m ∈ s.held t)
    (cycle : Relation.TransGen s.Waits t t) : s.held t = [.msg m, .txmm] := by
  obtain ⟨-, ⟨l, next, -⟩, -⟩ := Locks.waits_of_cycle cycle
  have order := orderly.top next
  generalize s.held t = locks at mem order
  cases order with
  | callback m' v =>
    obtain same | mem := List.mem_cons.1 mem
    · rw [same]
    · cases List.mem_singleton.1 mem
  | addba | txmm | msg => cases mem
  | txmmIn | msgIn | block => cases List.mem_singleton.1 mem
  | blockIn =>
    obtain same | mem := List.mem_cons.1 mem
    · cases same
    · cases List.mem_singleton.1 mem

variable [DecidableEq τ] [DecidableEq π] [DecidableEq ν]

omit [DecidableEq τ] in
/-- Threads that wait for each other in a cycle cross. -/
theorem crossed_of_cycle (orderly : s.Orderly Order) (cycle : Relation.TransGen s.Waits t t) :
    s.Crossed := by
  obtain ⟨b, m, v, held, next, cycle⟩ := callback_of_cycle orderly cycle
  have txmm : .txmm ∈ s.held b := by
    rw [held]
    exact List.mem_cons_of_mem _ List.mem_cons_self
  have only {t : τ} (mem : .txmm ∈ s.held t) : t = b := by
    have owner := ((orderly.owned _ t).2 mem).symm.trans ((orderly.owned _ b).2 txmm)
    exact Option.some.inj owner
  obtain ⟨c, ⟨l, next', owned⟩, cycle⟩ := Locks.waits_of_cycle cycle
  cases Option.mem_unique next' next
  have addba := (orderly.owned _ c).1 owned
  have apart : b ≠ c := by
    rintro rfl
    rw [held] at addba
    simp at addba
  obtain ⟨d, ⟨l, waits, owned⟩, cycle⟩ := Locks.waits_of_cycle cycle
  have order := orderly.top waits
  have crossed (l) (mem : l ∈ s.held b) (waits : l ∈ s.next c) : s.Crossed :=
    ⟨b, c, l, .addba v, apart, Locks.nests_of_next mem next, Locks.nests_of_next addba waits⟩
  generalize inner : s.held c = locks at order addba
  cases order with
  | addba | txmm | msg => cases addba
  | callback | block => simp at addba
  | txmmIn v' => exact crossed .txmm txmm waits
  | msgIn v' m' =>
    -- the message is held by the callback itself
    have busy := callback_of_msg orderly ((orderly.owned _ d).1 owned) cycle
    have same : d = b := only (by rw [busy]; exact List.mem_cons_of_mem _ List.mem_cons_self)
    exact crossed (.msg m') (same ▸ (orderly.owned _ d).1 owned) waits
  | blockIn v' m' =>
    have same : c = b := only (by rw [inner]; exact List.mem_cons_self)
    exact absurd same.symm apart

/-- No cycle of waiting threads is reached while no lock is taken into a crossing. -/
theorem no_deadlock_without_crossing (home : π → ν) :
    ∀ s : Locks τ (Lock π ν), Runs (Locks.step (Call.acts home)) Locks.Uncrossing .init s →
      ¬s.Deadlock := by
  intro s run
  have safe : s.Orderly Order ∧ ¬s.Crossed := by
    apply run.invariant (P := fun s => s.Orderly Order ∧ ¬s.Crossed)
    · exact ⟨Locks.init_orderly, fun ⟨_, _, _, _, _, nests, _⟩ => nomatch nests.1⟩
    · rintro s i ⟨orderly, uncrossed⟩ ok
      exact ⟨orderly.step (acts_nested home) i, Locks.uncrossed_step orderly uncrossed ok⟩
  rintro ⟨t, cycle⟩
  exact safe.2 (crossed_of_cycle safe.1 cycle)

end

/-- Thread 0 starts the negotiation of TID 1, and thread 1 has its request confirmed. In
between, thread 0 goes `ahead` with the negotiation of TID 2. -/
def twoThreads (ahead : Nat) : List (Turn (Fin 2) (Call Unit Unit)) :=
  Turn.call 0 (Call.startAggrNegotiation () 1 (some ⟨true, true, false, false⟩)) ::
    List.replicate 10 (Turn.run 0) ++
    [Turn.call 0 (Call.startAggrNegotiation () 2 (some ⟨true, true, false, false⟩)),
      .call 1 (Call.onCfm (some (⟨(), 1, .tx⟩, .addbaReqTxCfm)) true)] ++
    List.replicate ahead (Turn.run 0) ++ List.replicate 8 (Turn.run 1) ++
    List.replicate (10 - ahead) (Turn.run 0)

theorem no_deadlock_without_crossing_twice :
    let s : Locks (Fin 2) (Lock Unit Unit) :=
      (twoThreads 0).foldl (Locks.step (Call.acts id)) .init
    (∀ t, s.rest t = []) ∧ ¬s.Deadlock := by
  intro s
  have run : Runs (Locks.step (Call.acts id)) Locks.Uncrossing .init s := by
    apply Runs.of_allowed
    decide
  exact ⟨by decide, no_deadlock_without_crossing id s run⟩

/-- The confirmation waits for the lock of ADDBA, and the negotiation for that of TXMM. -/
theorem confirmation_deadlocks :
    let s : Locks (Fin 2) (Lock Unit Unit) :=
      (twoThreads 1).foldl (Locks.step (Call.acts id)) .init
    s.Deadlock := by
  intro s
  have waits : s.Waits 0 1 ∧ s.Waits 1 0 := by decide
  exact ⟨0, .tail (.single waits.1) waits.2⟩

end Wave300.Addba.Locking
