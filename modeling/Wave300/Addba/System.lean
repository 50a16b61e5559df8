import Wave300.Addba.Handlers
import Wave300.Lib.Trace

/-!
# All the peers

The peers of every VAP, with the two limiters they share. A call of the module, an
indication of the firmware, a frame of a peer, a confirmation or a timer tick is one step.
-/

namespace Wave300.Addba

open Wave300.Lib

/-- `log` is not in the source: it keeps what the handlers have put out for each TID. -/
structure System (π ν : Type) where
  home : π → ν
  cfg : ν → Fin nofTids → TidCfg
  nextDlgToken : ν → Nat
  aggrReflim : Reflim
  reordReflim : Reflim
  isActive : π → Bool
  tid : π × Fin nofTids → Tid
  log : π × Fin nofTids → List Out

variable {π ν : Type} [DecidableEq π] [DecidableEq ν]

/-- The limiters and the peers as they are set up. -/
def System.init (home : π → ν) (cfg : ν → Fin nofTids → TidCfg) (maxAggr maxReord : Nat) :
    System π ν where
  home := home
  cfg := cfg
  nextDlgToken := fun _ => 0
  aggrReflim := ⟨maxAggr, 0⟩
  reordReflim := ⟨maxReord, 0⟩
  isActive := fun _ => false
  tid := fun _ => .init
  log := fun _ => []

def System.ctx (s : System π ν) (k : π × Fin nofTids) : Ctx where
  aggrReflim := s.aggrReflim
  reordReflim := s.reordReflim
  nextDlgToken := s.nextDlgToken (s.home k.1)
  cfg := s.cfg (s.home k.1) k.2
  tid := s.tid k
  out := []

/-- Write back what a handler has made of a TID and of what it shares. -/
def System.put (s : System π ν) (k : π × Fin nofTids) (c : Ctx) : System π ν :=
  { s with
    aggrReflim := c.aggrReflim
    reordReflim := c.reordReflim
    nextDlgToken := Function.update s.nextDlgToken (s.home k.1) c.nextDlgToken
    tid := Function.update s.tid k c.tid
    log := Function.update s.log k (s.log k ++ c.out) }

/-- What was put out for a TID between two states. -/
def System.newOut (s s' : System π ν) (k : π × Fin nofTids) : List Out :=
  (s'.log k).drop (s.log k).length

def System.serve (s : System π ν) (k : π × Fin nofTids) (h : Ctx → Ctx) : System π ν :=
  s.put k (h (s.ctx k))

/-- The check of the TID and of the peer that the handlers of indications begin with. -/
def System.indicate (s : System π ν) (p : π) (tid : Nat) (h : Ctx → Ctx) : System π ν :=
  if ht : tid < nofTids then if s.isActive p then s.serve (p, ⟨tid, ht⟩) h else s else s

def System.serveAll (s : System π ν) (p : π) (h : Fin nofTids → Ctx → Ctx) : System π ν :=
  (List.finRange nofTids).foldl (fun s t => s.serve (p, t) (h t)) s

inductive Op (π ν : Type) where
  | peerStart (p : π) (now : Nat) (dot11nMode : Bool)
  | peerStop (p : π) (now : Nat) (dot11nMode : Bool)
  | startAggrNegotiation (p : π) (t : Fin nofTids) (psMode : Bool) (io : Io)
  | resetPowerSave (p : π) (t : Fin nofTids)
  | addbaReqRx (p : π) (tid : Nat) (req : AddbaReq) (now : Nat) (io : Io)
  | addbaResRx (p : π) (tid resCode winSizeRsp dlgt now : Nat) (io : Io)
  | delbaReqRx (p : π) (tid : Nat) (initiator : Bool) (io : Io)
  | delbaReq (p : π) (t : Fin nofTids) (closeIo delbaIo : Io)
  | delbaReqAll (p : π) (closeIo delbaIo : Fin nofTids → Io)
  | ackOnBar (p : π) (tid : Nat) (closeIo delbaIo : Io)
  | bar (p : π) (tid : Nat) (io : Io)
  | qosWithoutReord (p : π) (tid now : Nat) (io : Io)
  | baTxStatus (p : π) (tid : Nat) (msg : BaTxMsg) (initiator : Bool) (status now : Nat) (io : Io)
  | iterate (p : π) (now : Nat) (lastRx : Fin nofTids → Nat) (io : Fin nofTids → Io)
  | txMsgCfm (p : π) (t : Fin nofTids) (cfm : Cfm)
  | rxMsgCfm (p : π) (t : Fin nofTids)
  | reconfigure (v : ν) (cfg : Fin nofTids → TidCfg)

def step (s : System π ν) : Op π ν → System π ν
  | .peerStart p now dot11nMode =>
    if dot11nMode then
      { s.serveAll p fun _ => stopTid now with isActive := Function.update s.isActive p true }
    else s
  | .peerStop p now dot11nMode =>
    if dot11nMode then
      { s with isActive := Function.update s.isActive p false }.serveAll p fun _ => stopTid now
    else s
  | .startAggrNegotiation p t psMode io => s.serve (p, t) (startAggrNegotiation io psMode)
  | .resetPowerSave p t => s.serve (p, t) resetPowerSave
  | .addbaReqRx p tid req now io => s.indicate p tid (onAddbaReqRx io now req)
  | .addbaResRx p tid resCode winSizeRsp dlgt now io =>
    s.indicate p tid (onAddbaResRx io now resCode winSizeRsp dlgt)
  | .delbaReqRx p tid initiator io => s.indicate p tid (onDelbaReqRx io initiator)
  | .delbaReq p t closeIo delbaIo => s.indicate p t (delbaReq closeIo delbaIo)
  | .delbaReqAll p closeIo delbaIo =>
    if s.isActive p then s.serveAll p fun t => delbaReq (closeIo t) (delbaIo t) else s
  | .ackOnBar p tid closeIo delbaIo => s.indicate p tid (delbaReq closeIo delbaIo)
  | .bar p tid io => s.indicate p tid (onBar io)
  | .qosWithoutReord p tid now io => s.indicate p tid (onQosWithoutReord io now)
  | .baTxStatus p tid msg initiator status now io =>
    s.indicate p tid (onBaTxStatus io now msg initiator status)
  | .iterate p now lastRx io =>
    if s.isActive p then
      (s.serveAll p fun t => checkDelbaTimeout (io t) now (lastRx t)).serveAll p fun _ =>
        checkAddbaResRxTimeout now
    else s
  | .txMsgCfm p t cfm => s.serve (p, t) (onTxMsgCfm cfm)
  | .rxMsgCfm p t => s.serve (p, t) onRxMsgCfm
  | .reconfigure v cfg => { s with cfg := Function.update s.cfg v cfg }

/-- One peer on one VAP, with every TID allowed to aggregate. -/
def onePeer : System Unit Unit :=
  .init id (fun _ _ => ⟨true, true, 10, 16000, 3, 10, 0, 64⟩) 16 0xFFFFFFFF

/-! ## Invariants, one TID at a time -/

/-- The handlers keep `I`. The handler of an ADDBA response is left out: what it keeps
depends on when the response comes. -/
structure HandlersKeep (I : Ctx → Prop) : Prop where
  stopTid : ∀ now c, I c → I (stopTid now c)
  startAggrNegotiation : ∀ io psMode c, I c → I (startAggrNegotiation io psMode c)
  resetPowerSave : ∀ c, I c → I (resetPowerSave c)
  onAddbaReqRx : ∀ io now req c, I c → I (onAddbaReqRx io now req c)
  onDelbaReqRx : ∀ io initiator c, I c → I (onDelbaReqRx io initiator c)
  delbaReq : ∀ closeIo delbaIo c, I c → I (delbaReq closeIo delbaIo c)
  onBar : ∀ io c, I c → I (onBar io c)
  onQosWithoutReord : ∀ io now c, I c → I (onQosWithoutReord io now c)
  onBaTxStatus : ∀ io now msg initiator status c, I c →
    I (onBaTxStatus io now msg initiator status c)
  checkDelbaTimeout : ∀ io now lastRx c, I c → I (checkDelbaTimeout io now lastRx c)
  checkAddbaResRxTimeout : ∀ now c, I c → I (checkAddbaResRxTimeout now c)
  onTxMsgCfm : ∀ cfm c, I c → I (onTxMsgCfm cfm c)
  onRxMsgCfm : ∀ c, I c → I (onRxMsgCfm c)

/-- `Acc` holds of a system when `I` holds of each TID in turn, and depends on nothing but
the limiters, the TIDs and the logs. -/
structure Local (Acc : System π ν → Prop) (I : System π ν → π × Fin nofTids → Ctx → Prop) :
    Prop where
  enter : ∀ s k, Acc s → I s k (s.ctx k)
  leave : ∀ s k c, Acc s → I s k c → Acc (s.put k c)
  other : ∀ s isActive cfg, Acc s → Acc { s with isActive := isActive, cfg := cfg }

section
variable {Acc : System π ν → Prop} {I : System π ν → π × Fin nofTids → Ctx → Prop}
  (hl : Local Acc I) {s : System π ν}
include hl

theorem Local.serve (k : π × Fin nofTids) {h : Ctx → Ctx} (keep : ∀ c, I s k c → I s k (h c))
    (hs : Acc s) : Acc (s.serve k h) :=
  hl.leave s k _ hs (keep _ (hl.enter s k hs))

theorem Local.indicate (p : π) (tid : Nat) {h : Ctx → Ctx}
    (keep : ∀ k c, I s k c → I s k (h c)) (hs : Acc s) : Acc (s.indicate p tid h) := by
  unfold System.indicate
  split
  · split
    · exact hl.serve _ (keep _) hs
    · exact hs
  · exact hs

theorem Local.serveAll (p : π) {h : Fin nofTids → Ctx → Ctx}
    (keep : ∀ s t k c, I s k c → I s k (h t c)) (hs : Acc s) : Acc (s.serveAll p h) := by
  unfold System.serveAll
  generalize List.finRange nofTids = tids
  induction tids generalizing s with
  | nil => exact hs
  | cons t tids ih => exact ih (hl.serve (p, t) (keep s t _) hs)

/-- A step keeps what the handlers keep. -/
theorem Local.step (hk : ∀ s k, HandlersKeep (I s k)) {op : Op π ν}
    (res : ∀ p tid resCode winSizeRsp dlgt now io,
      op = .addbaResRx p tid resCode winSizeRsp dlgt now io → s.isActive p →
      ∀ t : Fin nofTids, tid = t → I s (p, t) (s.ctx (p, t)) →
        I s (p, t) (onAddbaResRx io now resCode winSizeRsp dlgt (s.ctx (p, t))))
    (hs : Acc s) : Acc (step s op) := by
  cases op with
  | peerStart p now dot11nMode =>
    simp only [Addba.step]
    split
    · exact hl.other _ _ _ (hl.serveAll p (fun s _ k => (hk s k).stopTid now) hs)
    · exact hs
  | peerStop p now dot11nMode =>
    simp only [Addba.step]
    split
    · exact hl.serveAll p (fun s _ k => (hk s k).stopTid now) (hl.other _ _ _ hs)
    · exact hs
  | startAggrNegotiation p t psMode io =>
    exact hl.serve _ ((hk s _).startAggrNegotiation io psMode) hs
  | resetPowerSave p t => exact hl.serve _ (hk s _).resetPowerSave hs
  | addbaReqRx p tid req now io =>
    exact hl.indicate p tid (fun k => (hk s k).onAddbaReqRx io now req) hs
  | addbaResRx p tid resCode winSizeRsp dlgt now io =>
    simp only [Addba.step, System.indicate]
    split
    · split
      · rename_i ht ha
        exact hl.leave s _ _ hs (res p tid resCode winSizeRsp dlgt now io rfl ha ⟨tid, ht⟩ rfl
          (hl.enter s _ hs))
      · exact hs
    · exact hs
  | delbaReqRx p tid initiator io =>
    exact hl.indicate p tid (fun k => (hk s k).onDelbaReqRx io initiator) hs
  | delbaReq p t closeIo delbaIo =>
    exact hl.indicate p t (fun k => (hk s k).delbaReq closeIo delbaIo) hs
  | delbaReqAll p closeIo delbaIo =>
    simp only [Addba.step]
    split
    · exact hl.serveAll p (fun s t k => (hk s k).delbaReq (closeIo t) (delbaIo t)) hs
    · exact hs
  | ackOnBar p tid closeIo delbaIo =>
    exact hl.indicate p tid (fun k => (hk s k).delbaReq closeIo delbaIo) hs
  | bar p tid io => exact hl.indicate p tid (fun k => (hk s k).onBar io) hs
  | qosWithoutReord p tid now io =>
    exact hl.indicate p tid (fun k => (hk s k).onQosWithoutReord io now) hs
  | baTxStatus p tid msg initiator status now io =>
    exact hl.indicate p tid (fun k => (hk s k).onBaTxStatus io now msg initiator status) hs
  | iterate p now lastRx io =>
    simp only [Addba.step]
    split
    · refine hl.serveAll p (fun s _ k => (hk s k).checkAddbaResRxTimeout now) ?_
      exact hl.serveAll p (fun s t k => (hk s k).checkDelbaTimeout (io t) now (lastRx t)) hs
    · exact hs
  | txMsgCfm p t cfm => exact hl.serve _ ((hk s _).onTxMsgCfm cfm) hs
  | rxMsgCfm p t => exact hl.serve _ (hk s _).onRxMsgCfm hs
  | reconfigure v cfg => exact hl.other s s.isActive _ hs

end

end Wave300.Addba
