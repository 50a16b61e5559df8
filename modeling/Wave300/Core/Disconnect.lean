import Wave300.Core.Activation

/-!
# Disconnecting

`core.c`: `_mtlk_core_send_disconnect_req_blocked`, for an access point and for a station, and the
tasks between which it runs, as far as they set the network state of a core or change which stations
are connected. Tasks of one core do not overlap.
-/

namespace Wave300.Core

open Lib

/-- A core, with the addresses in its station database and `PARAM_DB_CORE_BSSID`. -/
structure Bss (A : Type) where
  isAp : Bool
  net : NetState
  hwReady : Bool
  stations : List A
  bssid : A

/-- How the steps of an activation go, of a station to a BSS that is in the cache if it is known.
`prepared` is what comes then before the network state is changed. A station waits for its
connection event, which has an `activation_status`, and the master access point starts the watchdog
of AOCS. -/
structure Bringing where
  known : Bool
  prepared : Err
  activateReq : Err
  activateStatus : Bool
  event : Option Bool
  watchdog : Err
  hw : Moment → Bool

/-- How the steps of a disconnection go. -/
structure Disconnection where
  manMsg : Err
  disconnectReq : Err
  disconnectStatus : Bool
  hw : Moment → Bool

/-- Every step goes well. -/
def Bringing.fine : Bringing where
  known := true
  prepared := .ok
  activateReq := .ok
  activateStatus := true
  event := some true
  watchdog := .ok
  hw _ := true

def Disconnection.fine : Disconnection where
  manMsg := .ok
  disconnectReq := .ok
  disconnectStatus := true
  hw _ := true

namespace Bss

variable {A : Type}

section Definitions
variable [DecidableEq A] [Zero A]

/-- After the start of the core. -/
def init (isAp : Bool) : Bss A := ⟨isAp, .ready, true, [], 0⟩

/-- The hardware may have failed meanwhile. -/
def tick (c : Bss A) (stays : Bool) : Bss A := { c with hwReady := c.hwReady && stays }

/-- `mtlk_core_get_net_state` -/
def getNetState (c : Bss A) : NetState := if c.hwReady then c.net else .halted

/-- `mtlk_core_set_net_state` -/
def setNetState (c : Bss A) (new : NetState) : Bss A × Err :=
  if new = .halted then ({ c with net := .halted }, .ok)
  else if !c.hwReady && new ≠ .idle then (c, .hw)
  else if c.net ∈ Vaps.allowed new then ({ c with net := new }, .ok)
  else (c, .wrongContext)

/-- `FINISH` of both activations -/
def finishActivate (c : Bss A) (o : Bringing) (result : Err) : Bss A × Err :=
  let c := c.tick (o.hw .finish)
  if result ≠ .ok ∧ c.getNetState ≠ .ready then ((c.setNetState .ready).1, result)
  else (c, result)

/-- `mtlk_mbss_send_vap_activate` once the core is activating -/
def mbssSendVapActivate (c : Bss A) (o : Bringing) : Bss A × Err :=
  let c := ((c.tick (o.hw .connected)).setNetState .connected).1
  if o.watchdog ≠ .ok then ((c.setNetState .halted).1, o.watchdog) else c.finishActivate o .ok

/-- `mtlk_send_activate` once the core is activating. What the wait returned is the result also
where the activation failed. -/
def sendActivate (c : Bss A) (o : Bringing) : Bss A × Err :=
  match o.event with
  | none => ((c.setNetState .halted).1, .timeout)
  | some true => (((c.tick (o.hw .connected)).setNetState .connected).1).finishActivate o .ok
  | some false => (((c.tick (o.hw .connected)).setNetState .ready).1, .ok)

/-- `mtlk_mbss_send_vap_activate` and `mtlk_send_activate` from where the network state is set -/
def activating (c : Bss A) (o : Bringing) : Bss A × Err :=
  let (c, res) := (c.tick (o.hw .activating)).setNetState .activating
  if res ≠ .ok then c.finishActivate o .notReady
  else if o.activateReq ≠ .ok then c.finishActivate o o.activateReq
  else if !o.activateStatus then c.finishActivate o .unknown
  else if c.isAp then c.mbssSendVapActivate o
  else c.sendActivate o

/-- `_mtlk_core_activate` of an access point, `_mtlk_core_connect_sta` of a station -/
def activate (c : Bss A) (addr : A) (o : Bringing) : Bss A × Err :=
  let c := c.tick (o.hw .start)
  if c.getNetState ≠ .ready then (c, .notReady)
  else if !c.isAp && !o.known then (c, .params)
  else
    let c := { c with bssid := if c.isAp then c.bssid else addr }
    if o.prepared ≠ .ok then (c, o.prepared) else c.activating o

/-- `_mtlk_core_connect_sta_blocked`. An address that is there already is not added again. -/
def connectSta (c : Bss A) (a : A) (added : Bool) : Bss A :=
  if !added || a ∈ c.stations then c
  else { c with stations := a :: c.stations, bssid := if c.isAp then c.bssid else a }

/-- `clean_all_sta_on_disconnect` -/
def cleanAllSta (c : Bss A) : Bss A := { c with stations := [] }

/-- `cleanup_on_disconnect` -/
def cleanupOnDisconnect (c : Bss A) (hw : Moment → Bool) : Bss A :=
  let c := c.tick (hw .cleanup)
  if c.stations.isEmpty && c.getNetState = .disconnecting then
    ({ c with bssid := 0 }.tick (hw .ready)).setNetState .ready |>.1
  else c

/-- `_mtlk_core_send_vap_deactivate_req_blocked` -/
def sendVapDeactivateReqBlocked (c : Bss A) (o : Deactivation) : Bss A × Err :=
  let c := c.tick (o.hw .deactivate)
  if c.getNetState = .halted then (c.cleanAllSta, .ok)
  else
    let (c, res) := (c.tick (o.hw .disconnecting)).setNetState .disconnecting
    if res ≠ .ok then (c, res)
    else if o.manMsg ≠ .ok then (c, o.manMsg)
    else if o.deactivateReq ≠ .ok then (c, o.deactivateReq)
    else if !o.deactivateStatus then (c, .mac)
    else (c.cleanAllSta, .ok)

/-- `_mtlk_mbss_deactivate_vap` -/
def mbssDeactivateVap (c : Bss A) (o : Deactivation) : Bss A × Err :=
  let (c, res) := c.sendVapDeactivateReqBlocked o
  if res ≠ .ok ∨ o.vapRemoved ≠ .ok then
    ((c.setNetState .halted).1.cleanupOnDisconnect o.hw, .fw)
  else (c.cleanupOnDisconnect o.hw, .ok)

/-- `addr_to_send` -/
def addrToSend (c : Bss A) (addr : Option A) : A :=
  addr.getD (if c.isAp then 0 else c.bssid)

/-- The stations of the request go from the database. -/
def removed (c : Bss A) (addr : Option A) : List A :=
  if c.isAp && addr.isNone then [] else c.stations.erase (c.addrToSend addr)

/-- `_mtlk_core_send_disconnect_req_blocked` once the network state allows it. The status is looked
at after the cleanup. -/
def disconnectReq (c : Bss A) (addr : Option A) (o : Disconnection) (halted : Bool) : Bss A × Err :=
  let c := { c with stations := c.removed addr }
  if halted then (c, .ok)
  else
    let c := c.tick (o.hw .finish)
    if o.manMsg ≠ .ok then (c, o.manMsg)
    else if o.disconnectReq ≠ .ok then (c, o.disconnectReq)
    else (c.cleanupOnDisconnect o.hw, if o.disconnectStatus then .ok else .mac)

/-- `_mtlk_core_send_disconnect_req_blocked` -/
def sendDisconnectReqBlocked (c : Bss A) (addr : Option A) (o : Disconnection) : Bss A × Err :=
  let c := c.tick (o.hw .start)
  let halted : Bool := c.getNetState = .halted
  if (c.isAp && addr.isNone || !c.isAp) && !halted then
    let (c, res) := (c.tick (o.hw .disconnecting)).setNetState .disconnecting
    if res ≠ .ok then (c, res) else c.disconnectReq addr o halted
  else c.disconnectReq addr o halted

/-- `_mtlk_core_disconnect_sta`, which is put off while a scan is running -/
def disconnectSta (c : Bss A) (scanRunning : Bool) (o : Disconnection) : Bss A × Err :=
  if c.getNetState ≠ .connected ∧ c.getNetState ≠ .halted then (c, .notReady)
  else if scanRunning then (c, .ok)
  else c.sendDisconnectReqBlocked none o

/-- What happens: an activation, a station that connects, a disconnection, the deactivation of an
access point, the halt of the core or a failure of the hardware. -/
inductive Label (A : Type) where
  | activate (addr : A) (o : Bringing)
  | connect (a : A) (added : Bool)
  | disconnect (addr : Option A) (o : Disconnection)
  | deactivate (o : Deactivation)
  | halt
  | hwFails

/-- Only an access point that is up, or halted, is deactivated so. -/
def step (c : Bss A) : Label A → Bss A
  | .activate addr o => (c.activate addr o).1
  | .connect a added => c.connectSta a added
  | .disconnect addr o => (c.sendDisconnectReqBlocked addr o).1
  | .deactivate o =>
    if c.isAp ∧ (c.getNetState = .connected ∨ c.getNetState = .halted) then
      (c.mbssDeactivateVap o).1
    else c
  | .halt => (c.setNetState .halted).1
  | .hwFails => { c with hwReady := false }

/-- A later activation or a later disconnection is accepted. -/
def Accepting (c : Bss A) : Prop :=
  (∃ addr o, (c.activate addr o).2 = .ok) ∨ ∃ o, (c.disconnectSta false o).2 = .ok

/-- What is promised of a disconnection that leaves a core and returns a code. -/
structure Returned (c c' : Bss A) (res : Err) : Prop where
  connected : c'.getNetState = .disconnecting → c'.stations ≠ []
  accepting : c'.getNetState ≠ .disconnecting → c'.Accepting
  kept : res ≠ .ok → c'.stations = c.stations → c'.net = c.net

/-- A label keeps the promise. -/
def Right (c : Bss A) : Label A → Prop
  | .disconnect addr o =>
    c.Returned (c.sendDisconnectReqBlocked addr o).1 (c.sendDisconnectReqBlocked addr o).2
  | _ => True

/-- The network state is set to `NET_STATE_DISCONNECTING`. -/
def Leaves (c : Bss A) (addr : Option A) (o : Disconnection) : Prop :=
  (c.isAp = true → addr = none) ∧ c.net = .connected ∧ c.hwReady = true ∧ o.hw .start = true ∧
    o.hw .disconnecting = true

/-- Some station goes, and if the request is not sent, others stay or the hardware fails. Where the
request is sent and done, nobody need go. -/
def Kept (c : Bss A) : Label A → Prop
  | .disconnect addr o => c.Leaves addr o →
    if o.manMsg = .ok ∧ o.disconnectReq = .ok then
      o.disconnectStatus = true ∨ c.removed addr ≠ c.stations
    else c.removed addr ≠ c.stations ∧ (o.hw .finish = true → c.removed addr ≠ [])
  | _ => True

end Definitions

variable {c c' : Bss A} {addr : Option A}

/-! ## The network state -/

/-- The hardware may have failed. -/
structure Later (c c' : Bss A) : Prop where
  net : c'.net = c.net
  hwReady : c'.hwReady = true → c.hwReady = true

theorem getNetState_cases (c : Bss A) :
    c.hwReady = true ∧ c.getNetState = c.net ∨ c.hwReady = false ∧ c.getNetState = .halted := by
  cases ready : c.hwReady <;> simp [getNetState, ready]

theorem tick_later (c : Bss A) (stays : Bool) : c.Later (c.tick stays) :=
  ⟨rfl, fun ready => (Bool.and_eq_true_iff.1 ready).1⟩

theorem Later.trans {c₁ c₂ : Bss A} (h : c.Later c₁) (h' : c₁.Later c₂) : c.Later c₂ :=
  ⟨h'.net.trans h.net, fun ready => h.hwReady (h'.hwReady ready)⟩

theorem Later.getNetState (h : c.Later c') :
    c'.getNetState = c.getNetState ∨ c'.getNetState = .halted := by
  obtain ⟨ready, is⟩ | ⟨-, halted⟩ := getNetState_cases c'
  · obtain ⟨-, was⟩ | ⟨failed, -⟩ := getNetState_cases c
    · exact .inl (by rw [is, was, h.net])
    · cases failed.symm.trans (h.hwReady ready)
  · exact .inr halted

/-- What `mtlk_core_set_net_state` does, other than to halt. -/
theorem setNetState_cases (c : Bss A) (new : NetState) (alive : new ≠ .halted)
    (busy : new ≠ .idle) :
    c.hwReady = true ∧ c.net ∈ Vaps.allowed new ∧ c.setNetState new = ({ c with net := new }, .ok) ∨
      ¬ (c.hwReady = true ∧ c.net ∈ Vaps.allowed new) ∧
        ∃ res, res ≠ .ok ∧ c.setNetState new = (c, res) := by
  simp only [setNetState, if_neg alive]
  cases ready : c.hwReady with
  | false => exact .inr ⟨by simp, .hw, by simp, by simp [busy]⟩
  | true =>
    by_cases from_ : c.net ∈ Vaps.allowed new
    · exact .inl ⟨rfl, from_, by simp [from_]⟩
    · exact .inr ⟨by simp [from_], .wrongContext, by simp, by simp [from_]⟩

/-- From a state that allows it, the state is set, or the hardware has failed. -/
theorem setNetState_visible {new : NetState} (alive : new ≠ .halted) (busy : new ≠ .idle)
    (from_ : c.net ∈ Vaps.allowed new) : (c.setNetState new).1.getNetState = new ∨
      (c.setNetState new).1.getNetState = .halted := by
  obtain ⟨ready, -, is⟩ | ⟨refused, res, -, is⟩ := setNetState_cases c new alive busy
  · left
    rw [is]
    simp only [Bss.getNetState, if_pos ready]
  · right
    rw [is]
    obtain ⟨ready, -⟩ | ⟨-, halted⟩ := getNetState_cases c
    · exact absurd ⟨ready, from_⟩ refused
    · exact halted

theorem setNetState_halted (c : Bss A) : c.setNetState .halted = ({ c with net := .halted }, .ok) :=
  if_pos rfl

theorem halted_getNetState (c : Bss A) :
    ({ c with net := .halted } : Bss A).getNetState = .halted := by
  simp [Bss.getNetState]

/-- What `_mtlk_core_send_vap_deactivate_req_blocked` leaves when it succeeds. -/
theorem deactivated {o : Deactivation} (done : (c.sendVapDeactivateReqBlocked o).2 = .ok) :
    (c.sendVapDeactivateReqBlocked o).1.getNetState = .halted ∨
      (c.sendVapDeactivateReqBlocked o).1.net = .disconnecting ∧
        (c.sendVapDeactivateReqBlocked o).1.stations = [] := by
  simp only [sendVapDeactivateReqBlocked] at done ⊢
  split at done
  next halted =>
    left
    rw [if_pos halted]
    exact halted
  next alive =>
    rw [if_neg alive]
    obtain ⟨-, -, is⟩ | ⟨-, res, failed, is⟩ := setNetState_cases
      ((c.tick (o.hw .deactivate)).tick (o.hw .disconnecting)) .disconnecting (by simp) (by simp)
    · simp only [is, ne_eq, not_true_eq_false, if_false] at done ⊢
      split at done
      next failed => exact absurd done failed
      next sent =>
        split at done
        next failed => exact absurd done failed
        next got =>
          split at done
          next => cases done
          next accepted =>
            simp only [sent, got, accepted, if_false]
            exact .inr ⟨rfl, rfl⟩
    · simp only [is, if_pos failed] at done
      exact absurd done failed

variable [Zero A]

/-- What `cleanup_on_disconnect` leaves. -/
theorem cleanup_cases (c : Bss A) (hw : Moment → Bool) :
    (c.cleanupOnDisconnect hw).isAp = c.isAp ∧ (c.cleanupOnDisconnect hw).stations = c.stations ∧
      (c.Later (c.cleanupOnDisconnect hw) ∧
          (c.stations = [] → (c.cleanupOnDisconnect hw).getNetState ≠ .disconnecting) ∨
        c.stations = [] ∧ c.getNetState = .disconnecting ∧
          (c.cleanupOnDisconnect hw).getNetState = .ready) := by
  have later := tick_later c (hw .cleanup)
  simp only [cleanupOnDisconnect]
  split
  next last =>
    simp only [Bool.and_eq_true, List.isEmpty_iff, decide_eq_true_eq] at last
    obtain ⟨none, disconnecting⟩ := last
    have visible : c.getNetState = .disconnecting := by
      obtain same | halted := later.getNetState
      · exact same.symm.trans disconnecting
      · cases halted.symm.trans disconnecting
    have net : c.net = .disconnecting := by
      obtain ⟨-, is⟩ | ⟨-, halted⟩ := getNetState_cases c
      · exact is.symm.trans visible
      · cases halted.symm.trans visible
    have ticked : c.Later ({ c.tick (hw .cleanup) with bssid := 0 }.tick (hw .ready)) :=
      later.trans ⟨rfl, fun ready => (Bool.and_eq_true_iff.1 ready).1⟩
    obtain ⟨ready, -, is⟩ | ⟨refused, res, -, is⟩ :=
      setNetState_cases ({ c.tick (hw .cleanup) with bssid := 0 }.tick (hw .ready)) .ready
        (by simp) (by simp)
    · rw [is]
      refine ⟨rfl, rfl, .inr ⟨none, visible, ?_⟩⟩
      simp only [Bss.getNetState, if_pos ready]
    · rw [is]
      refine ⟨rfl, rfl, .inl ⟨ticked, ?_⟩⟩
      intro _ still
      obtain ⟨ready, -⟩ | ⟨-, halted⟩ :=
        getNetState_cases ({ c.tick (hw .cleanup) with bssid := 0 }.tick (hw .ready))
      · refine refused ⟨ready, ?_⟩
        rw [ticked.net, net]
        decide
      · cases halted.symm.trans still
  next others =>
    refine ⟨rfl, rfl, .inl ⟨later, ?_⟩⟩
    intro none still
    refine others ?_
    simp only [Bool.and_eq_true, List.isEmpty_iff, decide_eq_true_eq]
    exact ⟨none, still⟩

variable [DecidableEq A]

theorem accepting_iff : c.Accepting ↔
    c.getNetState = .ready ∨ c.getNetState = .connected ∨ c.getNetState = .halted := by
  constructor
  · rintro (⟨addr, o, done⟩ | ⟨o, done⟩)
    · left
      by_contra other
      have later := (tick_later c (o.hw .start)).getNetState
      have refused : (c.tick (o.hw .start)).getNetState ≠ .ready := by
        obtain same | halted := later
        · rwa [same]
        · rw [halted]
          exact nofun
      rw [activate, if_pos refused] at done
      cases done
    · right
      by_contra other
      rw [disconnectSta, if_pos (not_or.1 other)] at done
      cases done
  · rintro (ready | connected | halted)
    · obtain ⟨hw, is⟩ | ⟨-, not⟩ := getNetState_cases c
      · refine .inl ⟨0, .fine, ?_⟩
        have net : c.net = .ready := is.symm.trans ready
        cases ap : c.isAp <;>
          simp [activate, activating, Bringing.fine, tick, Bss.getNetState, hw, net, setNetState,
            Vaps.allowed, ap, mbssSendVapActivate, sendActivate, finishActivate]
      · cases ready.symm.trans not
    · obtain ⟨hw, is⟩ | ⟨-, not⟩ := getNetState_cases c
      · refine .inr ⟨.fine, ?_⟩
        have net : c.net = .connected := is.symm.trans connected
        simp [disconnectSta, Disconnection.fine, tick, Bss.getNetState, hw, net, setNetState,
          Vaps.allowed, sendDisconnectReqBlocked, disconnectReq]
      · cases connected.symm.trans not
    · refine .inr ⟨.fine, ?_⟩
      have still : (c.tick (Disconnection.fine.hw .start)).getNetState = .halted := by
        obtain same | halted' := (tick_later c (Disconnection.fine.hw .start)).getNetState
        · rw [same, halted]
        · exact halted'
      simp [disconnectSta, halted, sendDisconnectReqBlocked, still, disconnectReq]

/-- Between the tasks, a core that is disconnecting is a station, and connected still. -/
structure Settled (c : Bss A) : Prop where
  net : c.getNetState ≠ .disconnecting → c.Accepting
  disconnecting : c.getNetState = .disconnecting → c.isAp = false ∧ c.stations ≠ []

theorem Settled.of_accepting (h : c.Accepting) : c.Settled := by
  refine ⟨fun _ => h, ?_⟩
  intro disconnecting
  simp [accepting_iff, disconnecting] at h

theorem Settled.of_halted (h : c.getNetState = .halted) : c.Settled :=
  .of_accepting (accepting_iff.2 (.inr (.inr h)))

theorem Settled.later (h : c.Settled) (later : c.Later c') (isAp : c'.isAp = c.isAp)
    (stations : c.stations ≠ [] → c'.stations ≠ []) : c'.Settled := by
  obtain same | halted := later.getNetState
  · constructor
    · intro other
      rw [same] at other
      have accepting := h.net other
      rw [accepting_iff] at accepting ⊢
      rwa [same]
    · intro disconnecting
      rw [same] at disconnecting
      obtain ⟨station, some⟩ := h.disconnecting disconnecting
      exact ⟨isAp.trans station, stations some⟩
  · exact .of_halted halted

theorem Accepting.later (h : c.Accepting) (later : c.Later c') : c'.Accepting := by
  rw [accepting_iff] at h ⊢
  obtain same | halted := later.getNetState
  · rwa [same]
  · exact .inr (.inr halted)

theorem cleanup_accepting (hw : Moment → Bool)
    (h : c.getNetState = .halted ∨ c.net = .disconnecting ∧ c.stations = []) :
    (c.cleanupOnDisconnect hw).Accepting := by
  rw [accepting_iff]
  obtain ⟨-, -, ⟨later, done⟩ | ⟨-, -, ready⟩⟩ := cleanup_cases c hw
  · obtain halted | ⟨disconnecting, none⟩ := h
    · obtain same | failed := later.getNetState
      · exact .inr (.inr (same.trans halted))
      · exact .inr (.inr failed)
    · obtain ⟨-, is⟩ | ⟨-, halted⟩ := getNetState_cases (c.cleanupOnDisconnect hw)
      · exact absurd (is.trans (later.net.trans disconnecting)) (done none)
      · exact .inr (.inr halted)
  · exact .inl ready

/-! ## The other tasks -/

theorem finishActivate_accepting {res : Err} (o : Bringing) (failed : res ≠ .ok)
    (net : c.net = .ready ∨ c.net = .activating) : (c.finishActivate o res).1.Accepting := by
  have later := tick_later c (o.hw .finish)
  rw [accepting_iff]
  simp only [finishActivate]
  split
  next other =>
    obtain ⟨-, is⟩ | ⟨dead, halted⟩ := getNetState_cases (c.tick (o.hw .finish))
    · have activating : (c.tick (o.hw .finish)).net = .activating := by
        rw [later.net]
        refine net.resolve_left fun ready => other.2 ?_
        rw [is, later.net, ready]
      obtain ready | halted := setNetState_visible (show NetState.ready ≠ .halted by simp) (by simp)
        (show (c.tick (o.hw .finish)).net ∈ _ by rw [activating]; decide)
      · exact .inl ready
      · exact .inr (.inr halted)
    · obtain ⟨ready, -⟩ | ⟨-, res, -, is⟩ :=
        setNetState_cases (c.tick (o.hw .finish)) .ready (by simp) (by simp)
      · cases ready.symm.trans dead
      · rw [is]
        exact .inr (.inr halted)
  next kept => exact .inl (of_not_not fun other => kept ⟨failed, other⟩)

theorem finishActivate_ok (h : c.Accepting) (o : Bringing) :
    (c.finishActivate o .ok).1.Accepting := by
  simp only [finishActivate, ne_eq, not_true_eq_false, false_and, if_false]
  exact h.later (tick_later c _)

theorem setNetState_connected (net : c.net = .activating) :
    (c.setNetState .connected).1.Accepting := by
  rw [accepting_iff]
  obtain connected | halted := setNetState_visible (c := c)
    (show NetState.connected ≠ .halted by simp) (by simp) (by rw [net]; decide)
  · exact .inr (.inl connected)
  · exact .inr (.inr halted)

theorem mbssSendVapActivate_accepting (o : Bringing) (net : c.net = .activating) :
    (c.mbssSendVapActivate o).1.Accepting := by
  have connected := setNetState_connected (c := c.tick (o.hw .connected)) net
  simp only [mbssSendVapActivate]
  split
  · rw [setNetState_halted, accepting_iff]
    exact .inr (.inr (halted_getNetState _))
  · exact finishActivate_ok connected o

theorem sendActivate_accepting (o : Bringing) (net : c.net = .activating) :
    (c.sendActivate o).1.Accepting := by
  simp only [sendActivate]
  cases o.event with
  | none =>
    rw [setNetState_halted, accepting_iff]
    exact .inr (.inr (halted_getNetState _))
  | some joined =>
    cases joined with
    | true => exact finishActivate_ok (setNetState_connected (c := c.tick (o.hw .connected)) net) o
    | false =>
      rw [accepting_iff]
      obtain ready | halted := setNetState_visible (c := c.tick (o.hw .connected))
        (show NetState.ready ≠ .halted by simp) (by simp)
        (by rw [(tick_later c _).net, net]; decide)
      · exact .inl ready
      · exact .inr (.inr halted)

theorem activating_accepting (o : Bringing) (net : c.net = .ready) :
    (c.activating o).1.Accepting := by
  simp only [activating]
  obtain ⟨-, -, is⟩ | ⟨-, res, failed, is⟩ :=
    setNetState_cases (c.tick (o.hw .activating)) .activating (by simp) (by simp)
  · simp only [is, ne_eq, not_true_eq_false, if_false]
    split
    next refused => exact finishActivate_accepting o refused (.inr rfl)
    next =>
      split
      next => exact finishActivate_accepting o (by simp) (.inr rfl)
      next =>
        split
        next => exact mbssSendVapActivate_accepting o rfl
        next => exact sendActivate_accepting o rfl
  · simp only [is, if_pos failed]
    exact finishActivate_accepting o (by simp) (.inl net)

theorem activate_settled (h : c.Settled) (addr : A) (o : Bringing) :
    (c.activate addr o).1.Settled := by
  have later := tick_later c (o.hw .start)
  simp only [activate]
  split
  next => exact h.later later rfl id
  next ready =>
    rw [not_not] at ready
    split
    next => exact h.later later rfl id
    next =>
      have net : c.net = .ready := by
        obtain ⟨-, is⟩ | ⟨-, halted⟩ := getNetState_cases (c.tick (o.hw .start))
        · exact is.symm.trans ready
        · cases halted.symm.trans ready
      split
      next => exact h.later ⟨later.net, later.hwReady⟩ rfl id
      next => exact .of_accepting (activating_accepting o net)

theorem connectSta_settled (h : c.Settled) (a : A) (added : Bool) :
    (c.connectSta a added).Settled := by
  simp only [connectSta]
  split
  next => exact h
  next => exact h.later ⟨rfl, id⟩ rfl fun _ => List.cons_ne_nil _ _

theorem mbssDeactivateVap_accepting (c : Bss A) (o : Deactivation) :
    (c.mbssDeactivateVap o).1.Accepting := by
  simp only [mbssDeactivateVap]
  split
  next =>
    rw [setNetState_halted]
    exact cleanup_accepting o.hw (.inl (halted_getNetState _))
  next fine => exact cleanup_accepting o.hw (deactivated (of_not_not (not_or.1 fine).1))

/-! ## A disconnection -/

/-- A request is refused, or it goes with the network state as it is, or the core leaves. -/
theorem disconnect_cases (c : Bss A) (addr : Option A) (o : Disconnection) :
    ¬ c.Leaves addr o ∧ (∃ c' res, c.sendDisconnectReqBlocked addr o = (c', res) ∧ res ≠ .ok ∧
        c.Later c' ∧ c'.isAp = c.isAp ∧ c'.stations = c.stations) ∨
      ¬ c.Leaves addr o ∧
        (c.sendDisconnectReqBlocked addr o = (c.tick (o.hw .start)).disconnectReq addr o true ∧
            (c.tick (o.hw .start)).getNetState = .halted ∨
          c.sendDisconnectReqBlocked addr o = (c.tick (o.hw .start)).disconnectReq addr o false ∧
            c.isAp = true) ∨
      c.Leaves addr o ∧ c.sendDisconnectReqBlocked addr o =
        ({ c with net := .disconnecting } : Bss A).disconnectReq addr o false := by
  by_cases halted : (c.tick (o.hw .start)).getNetState = .halted
  · refine .inr (.inl ⟨?_, .inl ⟨?_, halted⟩⟩)
    · rintro ⟨-, connected, ready, start, -⟩
      simp [Bss.getNetState, tick, connected, ready, start] at halted
    · simp [sendDisconnectReqBlocked, halted]
  by_cases one : c.isAp = true ∧ addr ≠ none
  · obtain ⟨ap, some⟩ := one
    refine .inr (.inl ⟨fun leaves => some (leaves.1 ap), .inr ⟨?_, ap⟩⟩)
    have named : addr.isNone = false := by cases addr <;> simp at some ⊢
    have ticked : (c.tick (o.hw .start)).isAp = true := ap
    simp [sendDisconnectReqBlocked, halted, ticked, named]
  have all : ((c.tick (o.hw .start)).isAp && addr.isNone ||
      !(c.tick (o.hw .start)).isAp) = true := by
    have ticked : (c.tick (o.hw .start)).isAp = c.isAp := rfl
    rw [ticked]
    cases ap : c.isAp with
    | false => rfl
    | true =>
      have none : addr = none := of_not_not fun some => one ⟨ap, some⟩
      simp [none]
  have later := (tick_later c (o.hw .start)).trans (tick_later _ (o.hw .disconnecting))
  simp only [sendDisconnectReqBlocked, all, halted, decide_false, Bool.not_false, Bool.and_self,
    if_true]
  obtain ⟨ready, from_, is⟩ | ⟨refused, res, failed, is⟩ := setNetState_cases
    ((c.tick (o.hw .start)).tick (o.hw .disconnecting)) .disconnecting (by simp) (by simp)
  · have connected : c.net = .connected := by
      rw [later.net] at from_
      simpa [Vaps.allowed] using from_
    simp only [tick, Bool.and_eq_true] at ready
    refine .inr (.inr ⟨⟨?_, connected, ready.1.1, ready.1.2, ready.2⟩, ?_⟩)
    · exact fun ap => of_not_not fun some => one ⟨ap, some⟩
    · simp only [is, ne_eq, not_true_eq_false, if_false]
      simp only [tick, ready, Bool.and_self]
  · refine .inl ⟨?_, ?_⟩
    · rintro ⟨-, connected, ready, start, disconnecting⟩
      refine refused ⟨?_, ?_⟩
      · simp [tick, ready, start, disconnecting]
      · rw [later.net, connected]
        decide
    · simp only [is, if_pos failed]
      exact ⟨_, res, rfl, failed, later, rfl, rfl⟩

/-- What a request does that is not refused. -/
theorem disconnectReq_cases (c : Bss A) (addr : Option A) (o : Disconnection) :
    ¬ (o.manMsg = .ok ∧ o.disconnectReq = .ok) ∧ (∃ res, res ≠ .ok ∧
        c.disconnectReq addr o false =
          ({ c with stations := c.removed addr }.tick (o.hw .finish), res)) ∨
      (o.manMsg = .ok ∧ o.disconnectReq = .ok) ∧ c.disconnectReq addr o false =
        (({ c with stations := c.removed addr }.tick (o.hw .finish)).cleanupOnDisconnect o.hw,
          if o.disconnectStatus then .ok else .mac) := by
  simp only [disconnectReq, Bool.false_eq_true, if_false]
  by_cases got : o.manMsg = .ok
  · by_cases sent : o.disconnectReq = .ok
    · exact .inr ⟨⟨got, sent⟩, by simp [got, sent]⟩
    · exact .inl ⟨fun both => sent both.2, _, sent, by simp [got, sent]⟩
  · exact .inl ⟨fun both => got both.1, _, got, by simp [got]⟩

/-- Where the network state is not set, only the hardware changes what it seems to be. -/
theorem settled_of_stays (settled : c.Settled) {o : Disconnection} (stays : ¬ c.Leaves addr o) :
    c.Later (c.sendDisconnectReqBlocked addr o).1 ∧
      (c.sendDisconnectReqBlocked addr o).1.Settled := by
  obtain ⟨-, c', res, is, -, later, isAp, stations⟩ |
    ⟨-, ⟨is, halted⟩ | ⟨is, ap⟩⟩ | ⟨leaves, -⟩ := disconnect_cases c addr o
  · rw [is]
    exact ⟨later, settled.later later isAp (by rw [stations]; exact id)⟩
  · rw [is, disconnectReq, if_pos rfl]
    have later := tick_later c (o.hw .start)
    exact ⟨⟨later.net, later.hwReady⟩, .of_halted halted⟩
  · have accepting : c.Accepting := settled.net fun disconnecting =>
      absurd ap (by simp [(settled.disconnecting disconnecting).1])
    have before : c.Later ({ c.tick (o.hw .start) with
        stations := (c.tick (o.hw .start)).removed addr }.tick (o.hw .finish)) :=
      (tick_later c (o.hw .start)).trans ⟨rfl, fun ready => (Bool.and_eq_true_iff.1 ready).1⟩
    rw [is]
    obtain ⟨-, res, -, is⟩ | ⟨-, is⟩ := disconnectReq_cases (c.tick (o.hw .start)) addr o
    · rw [is]
      exact ⟨before, .of_accepting (accepting.later before)⟩
    · rw [is]
      obtain ⟨-, -, ⟨later, -⟩ | ⟨-, disconnecting, -⟩⟩ := cleanup_cases
        ({ c.tick (o.hw .start) with
          stations := (c.tick (o.hw .start)).removed addr }.tick (o.hw .finish)) o.hw
      · exact ⟨before.trans later, .of_accepting (accepting.later (before.trans later))⟩
      · have still := accepting.later before
        simp [accepting_iff, disconnecting] at still
  · exact absurd leaves stays

theorem stations_of_leaves {o : Disconnection} (leaves : c.Leaves addr o) :
    (c.sendDisconnectReqBlocked addr o).1.stations = c.removed addr ∧
      (c.sendDisconnectReqBlocked addr o).1.isAp = c.isAp := by
  obtain ⟨stays, -⟩ | ⟨stays, -⟩ | ⟨-, is⟩ := disconnect_cases c addr o
  · exact absurd leaves stays
  · exact absurd leaves stays
  rw [is]
  obtain ⟨-, res, -, is⟩ | ⟨-, is⟩ :=
    disconnectReq_cases ({ c with net := .disconnecting } : Bss A) addr o
  · rw [is]
    exact ⟨rfl, rfl⟩
  · rw [is]
    obtain ⟨isAp, stations, -⟩ := cleanup_cases ({ c with
      net := .disconnecting
      stations := c.removed addr }.tick (o.hw .finish)) o.hw
    exact ⟨stations, isAp⟩

/-- The promise of a core that leaves. -/
theorem returned_iff_of_leaves {o : Disconnection} (leaves : c.Leaves addr o) :
    c.Returned (c.sendDisconnectReqBlocked addr o).1 (c.sendDisconnectReqBlocked addr o).2 ↔
      c.Kept (.disconnect addr o) := by
  obtain ⟨stays, -⟩ | ⟨stays, -⟩ | ⟨-, is⟩ := disconnect_cases c addr o
  · exact absurd leaves stays
  · exact absurd leaves stays
  have allowed := leaves
  obtain ⟨-, connected, ready, -⟩ := leaves
  obtain ⟨stations, removed⟩ : ∃ l, c.removed addr = l := ⟨_, rfl⟩
  obtain ⟨c₁, left⟩ : ∃ c₁ : Bss A,
    c₁ = { c with net := .disconnecting, stations := stations }.tick (o.hw .finish) := ⟨_, rfl⟩
  have net : c₁.net = .disconnecting := by rw [left]; rfl
  have hw : c₁.hwReady = o.hw .finish := by
    rw [left]
    simp only [tick, ready, Bool.true_and]
  have there : c₁.stations = stations := by rw [left]; rfl
  have visible : c₁.getNetState = if o.hw .finish then .disconnecting else .halted := by
    simp only [Bss.getNetState, hw, net]
  rw [is]
  obtain ⟨unsent, res, failed, is⟩ | ⟨sent, is⟩ :=
    disconnectReq_cases ({ c with net := .disconnecting } : Bss A) addr o
  · have same : ({ c with net := .disconnecting } : Bss A).removed addr = stations := removed
    rw [is, same, ← left]
    simp only [Kept, allowed, true_implies, if_neg unsent, removed]
    constructor
    · intro returned
      refine ⟨fun all => ?_, fun alive => ?_⟩
      · cases (net.symm.trans (returned.kept failed (there.trans all))).trans connected
      · rw [← there]
        exact returned.connected (by rw [visible, if_pos alive])
    · rintro ⟨some, others⟩
      refine ⟨fun disconnecting => ?_, fun other => ?_,
        fun _ all => absurd (there.symm.trans all) some⟩
      · rw [there]
        refine others (of_not_not fun dead => ?_)
        rw [visible, if_neg dead] at disconnecting
        cases disconnecting
      · refine accepting_iff.2 (.inr (.inr ?_))
        rw [visible] at other ⊢
        exact if_neg fun alive => other (if_pos alive)
  · have same : ({ c with net := .disconnecting } : Bss A).removed addr = stations := removed
    rw [is, same, ← left]
    simp only [Kept, allowed, true_implies, if_pos sent, removed]
    obtain ⟨-, same, after⟩ := cleanup_cases c₁ o.hw
    rw [there] at same after
    have changed : (c₁.cleanupOnDisconnect o.hw).net ≠ .connected := by
      intro unchanged
      obtain ⟨later, -⟩ | ⟨-, -, ready⟩ := after
      · cases unchanged.symm.trans (later.net.trans net)
      · simp [Bss.getNetState, unchanged] at ready
        split at ready <;> cases ready
    constructor
    · intro returned
      cases status : o.disconnectStatus with
      | true => exact .inl rfl
      | false =>
        right
        intro all
        refine changed ((returned.kept ?_ (same.trans all)).trans connected)
        simp [status]
    · intro done
      refine ⟨?_, ?_, fun failed all => ?_⟩
      · intro disconnecting
        rw [same]
        intro none
        obtain ⟨-, not⟩ | ⟨-, -, ready⟩ := after
        · exact not none disconnecting
        · cases ready.symm.trans disconnecting
      · intro other
        obtain ⟨later, -⟩ | ⟨-, -, ready⟩ := after
        · obtain is | halted := later.getNetState
          · refine accepting_iff.2 (.inr (.inr ?_))
            rw [is, visible] at other ⊢
            exact if_neg fun alive => other (if_pos alive)
          · exact accepting_iff.2 (.inr (.inr halted))
        · exact accepting_iff.2 (.inl ready)
      · obtain fine | some := done
        · exact absurd (if_pos fine) failed
        · exact absurd (same.symm.trans all) some

theorem right_iff (settled : c.Settled) (l : Label A) : c.Right l ↔ c.Kept l := by
  cases l with
  | disconnect addr o =>
    by_cases leaves : c.Leaves addr o
    · exact returned_iff_of_leaves leaves
    · obtain ⟨later, after⟩ := settled_of_stays settled leaves
      refine iff_of_true ?_ fun leaves' => absurd leaves' leaves
      exact ⟨fun disconnecting => (after.disconnecting disconnecting).2, after.net,
        fun _ _ => later.net⟩
  | _ => exact Iff.rfl

theorem step_settled (settled : c.Settled) (l : Label A) (right : c.Right l) :
    (c.step l).Settled := by
  cases l with
  | activate addr o => exact activate_settled settled addr o
  | connect a added => exact connectSta_settled settled a added
  | disconnect addr o =>
    by_cases leaves : c.Leaves addr o
    · obtain ⟨stations, isAp⟩ := stations_of_leaves leaves
      refine ⟨right.accepting, fun disconnecting => ⟨?_, right.connected disconnecting⟩⟩
      by_contra ap
      rw [step, isAp, Bool.not_eq_false] at ap
      refine right.connected disconnecting ?_
      rw [stations, removed, leaves.1 ap, ap]
      rfl
    · exact (settled_of_stays settled leaves).2
  | deactivate o =>
    simp only [step]
    split
    · exact .of_accepting (mbssDeactivateVap_accepting c o)
    · exact settled
  | halt =>
    rw [step, setNetState_halted]
    exact .of_halted (halted_getNetState c)
  | hwFails => exact .of_halted rfl

/-- Over every run of a core, the disconnections keep the promise exactly where none fails that had
nobody to disconnect, or nobody left. -/
theorem disconnections_right_iff (isAp : Bool) (labels : List (Label A)) :
    Allowed step Right (init isAp : Bss A) labels ↔ Allowed step Kept (init isAp) labels := by
  have start : Settled (init isAp : Bss A) := .of_accepting (accepting_iff.2 (.inl rfl))
  exact allowed_iff start (fun c l settled => right_iff settled l)
    fun c l settled right => step_settled settled l right

/-- A station is connected, and no message can be had for its disconnection. -/
def lastStation : List (Label Nat) :=
  [.activate 7 .fine, .connect 7 true,
    .disconnect none { Disconnection.fine with manMsg := .noMem }]

theorem stranded_lastStation :
    ¬ ∀ (isAp : Bool) (labels : List (Label Nat)), Allowed step Right (init isAp) labels := by
  intro all
  obtain ⟨-, -, returned, -⟩ := all false lastStation
  exact returned.connected (by decide) (by decide)

end Bss

end Wave300.Core
