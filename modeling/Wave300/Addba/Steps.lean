import Wave300.Addba.System

/-!
# What a step does to one TID

The handlers that a step runs for a TID, one after the other, and the history of a TID: what
its handlers have put out, with marks in between for what came from outside.
-/

namespace Wave300.Addba

open Wave300.Lib

variable {π ν : Type} [DecidableEq π] [DecidableEq ν]

/-- The handlers that a step runs for TID `k`. -/
def Op.handlers (s : System π ν) (k : π × Fin nofTids) : Op π ν → List (Ctx → Ctx)
  | .peerStart p now dot11nMode => if dot11nMode ∧ k.1 = p then [stopTid now] else []
  | .peerStop p now dot11nMode => if dot11nMode ∧ k.1 = p then [stopTid now] else []
  | .startAggrNegotiation p t psMode io =>
    if k = (p, t) then [Addba.startAggrNegotiation io psMode] else []
  | .resetPowerSave p t => if k = (p, t) then [Addba.resetPowerSave] else []
  | .addbaReqRx p tid req now io => indicated p tid (onAddbaReqRx io now req)
  | .addbaResRx p tid resCode winSizeRsp dlgt now io =>
    indicated p tid (onAddbaResRx io now resCode winSizeRsp dlgt)
  | .delbaReqRx p tid initiator io => indicated p tid (onDelbaReqRx io initiator)
  | .delbaReq p t closeIo delbaIo => indicated p t (Addba.delbaReq closeIo delbaIo)
  | .delbaReqAll p closeIo delbaIo =>
    if s.isActive p ∧ k.1 = p then [Addba.delbaReq (closeIo k.2) (delbaIo k.2)] else []
  | .ackOnBar p tid closeIo delbaIo => indicated p tid (Addba.delbaReq closeIo delbaIo)
  | .bar p tid io => indicated p tid (onBar io)
  | .qosWithoutReord p tid now io => indicated p tid (onQosWithoutReord io now)
  | .baTxStatus p tid msg initiator status now io =>
    indicated p tid (onBaTxStatus io now msg initiator status)
  | .iterate p now lastRx io =>
    if s.isActive p ∧ k.1 = p then
      [checkDelbaTimeout (io k.2) now (lastRx k.2), checkAddbaResRxTimeout now]
    else []
  | .txMsgCfm p t cfm => if k = (p, t) then [onTxMsgCfm cfm] else []
  | .rxMsgCfm p t => if k = (p, t) then [onRxMsgCfm] else []
  | .reconfigure _ _ => []
where
  indicated (p : π) (tid : Nat) (h : Ctx → Ctx) : List (Ctx → Ctx) :=
    if s.isActive p ∧ k.1 = p ∧ tid = k.2 then [h] else []

/-- The handlers `hs` take a TID from `t` to `t'` and put out `out`. They find the limiters
and the dialog token as the other TIDs have left them. -/
def Serves (cfg : TidCfg) : Tid → List (Ctx → Ctx) → Tid → List Out → Prop
  | t, [], t', out => t' = t ∧ out = []
  | t, h :: hs, t', out => ∃ c : Ctx, c.tid = t ∧ c.out = [] ∧ c.cfg = cfg ∧
      ∃ rest, Serves cfg (h c).tid hs t' rest ∧ out = (h c).out ++ rest

theorem Serves.one {cfg : TidCfg} {t t' : Tid} {h : Ctx → Ctx} {out : List Out}
    (serves : Serves cfg t [h] t' out) : ∃ c : Ctx, c.tid = t ∧ c.out = [] ∧ c.cfg = cfg ∧
      t' = (h c).tid ∧ out = (h c).out := by
  obtain ⟨c, tid, fresh, config, rest, ⟨rfl, rfl⟩, rfl⟩ := serves
  exact ⟨c, tid, fresh, config, rfl, List.append_nil _⟩

/-- A handler that is run under a condition. -/
theorem Serves.guarded {cfg : TidCfg} {t t' : Tid} {h : Ctx → Ctx} {out : List Out} {P : Prop}
    [Decidable P] (serves : Serves cfg t (if P then [h] else []) t' out) :
    (t' = t ∧ out = []) ∨ (P ∧ ∃ c : Ctx, c.tid = t ∧ c.out = [] ∧ c.cfg = cfg ∧
      t' = (h c).tid ∧ out = (h c).out) := by
  split at serves
  · rename_i holds
    exact .inr ⟨holds, serves.one⟩
  · exact .inl serves

theorem Serves.trans {cfg : TidCfg} {t t' t'' : Tid} {hs hs' : List (Ctx → Ctx)}
    {out out' : List Out} (first : Serves cfg t hs t' out) (second : Serves cfg t' hs' t'' out') :
    Serves cfg t (hs ++ hs') t'' (out ++ out') := by
  induction hs generalizing t out with
  | nil =>
    obtain ⟨rfl, rfl⟩ := first
    exact second
  | cons h hs ih =>
    obtain ⟨c, tid, fresh, config, rest, serves, rfl⟩ := first
    exact ⟨c, tid, fresh, config, rest ++ out', ih serves, List.append_assoc ..⟩

/-- What each handler keeps is kept by them all. -/
theorem Serves.keep {cfg : TidCfg} {K : Tid → List Out → Prop} {t t' : Tid}
    {hs : List (Ctx → Ctx)} {out : List Out} (serves : Serves cfg t hs t' out)
    (each : ∀ h ∈ hs, ∀ (c : Ctx) (pre : List Out), c.out = [] → c.cfg = cfg → K c.tid pre →
      K (h c).tid (pre ++ (h c).out)) (pre : List Out) (start : K t pre) :
    K t' (pre ++ out) := by
  induction hs generalizing t pre out with
  | nil =>
    obtain ⟨rfl, rfl⟩ := serves
    rwa [List.append_nil]
  | cons h hs ih =>
    obtain ⟨c, rfl, fresh, config, rest, serves, rfl⟩ := serves
    rw [← List.append_assoc]
    apply ih serves
    · intro h' mem
      exact each h' (List.mem_cons_of_mem h mem)
    · exact each h List.mem_cons_self c pre fresh config start

/-- TID `k` is served by `hs` on the way from `s` to `s'`. -/
def ServedAt (s s' : System π ν) (k : π × Fin nofTids) (hs : List (Ctx → Ctx)) : Prop :=
  ∃ out, Serves (s.cfg (s.home k.1) k.2) (s.tid k) hs (s'.tid k) out ∧ s'.log k = s.log k ++ out

section
variable {s s' : System π ν} {k : π × Fin nofTids} {p : π} {h : Ctx → Ctx}

omit [DecidableEq π] [DecidableEq ν] in
theorem ServedAt.idle (tid : s'.tid k = s.tid k) (log : s'.log k = s.log k) :
    ServedAt s s' k [] := by
  exact ⟨[], ⟨tid, rfl⟩, by rw [log, List.append_nil]⟩

theorem serve_at (k' : π × Fin nofTids) :
    ServedAt s (s.serve k' h) k (if k = k' then [h] else []) := by
  split
  · rename_i same
    subst same
    refine ⟨(h (s.ctx k)).out, ?_, Function.update_self ..⟩
    have tid : (s.serve k h).tid k = (h (s.ctx k)).tid := Function.update_self ..
    exact ⟨s.ctx k, rfl, rfl, rfl, [], ⟨tid, rfl⟩, (List.append_nil _).symm⟩
  · rename_i ne
    exact .idle (Function.update_of_ne ne ..) (Function.update_of_ne ne ..)

theorem indicate_at (tid : Nat) :
    ServedAt s (s.indicate p tid h) k (Op.handlers.indicated s k p tid h) := by
  unfold System.indicate Op.handlers.indicated
  by_cases active : s.isActive p
  · by_cases lt : tid < nofTids
    · simp only [active, lt, ↓reduceDIte, if_true, true_and]
      have same : (k.1 = p ∧ tid = k.2) ↔ k = (p, ⟨tid, lt⟩) := by
        rw [Prod.ext_iff, Fin.ext_iff, eq_comm (a := tid)]
      simp only [same]
      exact serve_at _
    · have apart : ¬tid = k.2 := by
        rintro rfl
        exact lt k.2.isLt
      simp only [lt, apart, ↓reduceDIte, and_false, if_false]
      exact .idle rfl rfl
  · simp only [active, Bool.false_eq_true, false_and, if_false, dite_eq_ite, ite_self]
    exact .idle rfl rfl

theorem serveAll_at (f : Fin nofTids → Ctx → Ctx) :
    ServedAt s (s.serveAll p f) k (if k.1 = p then [f k.2] else []) := by
  have part (ts : List (Fin nofTids)) (nodup : ts.Nodup) (s₀ : System π ν) :
      (ts.foldl (fun s t => s.serve (p, t) (f t)) s₀).home = s₀.home ∧
      (ts.foldl (fun s t => s.serve (p, t) (f t)) s₀).cfg = s₀.cfg ∧
      ServedAt s₀ (ts.foldl (fun s t => s.serve (p, t) (f t)) s₀) k
        (if k.1 = p ∧ k.2 ∈ ts then [f k.2] else []) := by
    induction ts generalizing s₀ with
    | nil =>
      refine ⟨rfl, rfl, ?_⟩
      simp only [List.not_mem_nil, and_false, if_false]
      exact .idle rfl rfl
    | cons t ts ih =>
      obtain ⟨fresh, nodup⟩ := List.nodup_cons.1 nodup
      obtain ⟨home, cfg, out, serves, log⟩ := ih nodup (s₀.serve (p, t) (f t))
      refine ⟨home, cfg, ?_⟩
      obtain ⟨out₁, first, log₁⟩ := serve_at (s := s₀) (h := f t) (k := k) (p, t)
      by_cases same : k = (p, t)
      · have ended : ¬(k.1 = p ∧ k.2 ∈ ts) := by
          rintro ⟨-, mem⟩
          rw [same] at mem
          exact fresh mem
        have head : k.1 = p ∧ k.2 ∈ t :: ts := by
          rw [same]
          exact ⟨rfl, List.mem_cons_self⟩
        rw [if_neg ended] at serves
        rw [if_pos head]
        rw [if_pos same] at first
        obtain ⟨tid, rfl⟩ := serves
        refine ⟨out₁, ?_, ?_⟩
        · rw [List.foldl_cons, tid, show f k.2 = f t by rw [same]]
          exact first
        · rw [List.foldl_cons, log, List.append_nil, log₁]
      · have tail : (k.1 = p ∧ k.2 ∈ t :: ts) ↔ (k.1 = p ∧ k.2 ∈ ts) := by
          rw [List.mem_cons]
          constructor
          · rintro ⟨rfl, rfl | mem⟩
            · exact absurd rfl same
            · exact ⟨rfl, mem⟩
          · rintro ⟨peer, mem⟩
            exact ⟨peer, .inr mem⟩
        have tid : (s₀.serve (p, t) (f t)).tid k = s₀.tid k := Function.update_of_ne same ..
        have log₀ : (s₀.serve (p, t) (f t)).log k = s₀.log k := Function.update_of_ne same ..
        simp only [tail, List.foldl_cons]
        rw [tid] at serves
        rw [log₀] at log
        exact ⟨out, serves, log⟩
  obtain ⟨-, -, served⟩ := part (List.finRange nofTids) (List.nodup_finRange _) s
  simp only [List.mem_finRange, and_true] at served
  exact served

omit [DecidableEq π] [DecidableEq ν] in
/-- A change of what no TID depends on. -/
theorem ServedAt.of_eq {hs : List (Ctx → Ctx)} {s₁ s₁' : System π ν} (served : ServedAt s s' k hs)
    (home : s₁.home = s.home) (cfg : s₁.cfg = s.cfg) (tid : s₁.tid k = s.tid k)
    (log : s₁.log k = s.log k) (tid' : s₁'.tid k = s'.tid k) (log' : s₁'.log k = s'.log k) :
    ServedAt s₁ s₁' k hs := by
  obtain ⟨out, serves, logged⟩ := served
  refine ⟨out, ?_, ?_⟩
  · rw [home, cfg, tid, tid']
    exact serves
  · rw [log', log, logged]

omit [DecidableEq π] [DecidableEq ν] in
theorem ServedAt.trans {s'' : System π ν} {hs hs' : List (Ctx → Ctx)} (first : ServedAt s s' k hs)
    (home : s'.home = s.home) (cfg : s'.cfg = s.cfg) (second : ServedAt s' s'' k hs') :
    ServedAt s s'' k (hs ++ hs') := by
  obtain ⟨out, serves, logged⟩ := first
  obtain ⟨out', serves', logged'⟩ := second
  refine ⟨out ++ out', ?_, by rw [logged', logged, List.append_assoc]⟩
  rw [home, cfg] at serves'
  exact serves.trans serves'

theorem serveAll_frame (f : Fin nofTids → Ctx → Ctx) :
    (s.serveAll p f).home = s.home ∧ (s.serveAll p f).cfg = s.cfg := by
  unfold System.serveAll
  generalize List.finRange nofTids = ts
  induction ts generalizing s with
  | nil => exact ⟨rfl, rfl⟩
  | cons t ts ih => exact ih

end

/-- A step serves each TID by its handlers. -/
theorem step_at (s : System π ν) (op : Op π ν) (k : π × Fin nofTids) :
    ServedAt s (step s op) k (op.handlers s k) := by
  cases op with
  | peerStart p now dot11nMode =>
    simp only [step, Op.handlers]
    cases dot11nMode with
    | true =>
      simp only [if_true, true_and]
      have swept := serveAll_at (s := s) (k := k) (p := p) fun _ => stopTid now
      generalize s.serveAll p (fun _ => stopTid now) = s' at swept ⊢
      exact swept.of_eq rfl rfl rfl rfl rfl rfl
    | false => exact .idle rfl rfl
  | peerStop p now dot11nMode =>
    simp only [step, Op.handlers]
    cases dot11nMode with
    | true =>
      simp only [if_true, true_and]
      have swept := serveAll_at (s := { s with isActive := Function.update s.isActive p false })
        (k := k) (p := p) fun _ => stopTid now
      generalize System.serveAll (π := π) (ν := ν) _ p (fun _ => stopTid now) = s' at swept ⊢
      exact swept.of_eq rfl rfl rfl rfl rfl rfl
    | false => exact .idle rfl rfl
  | startAggrNegotiation p t psMode io => exact serve_at _
  | resetPowerSave p t => exact serve_at _
  | addbaReqRx p tid req now io => exact indicate_at tid
  | addbaResRx p tid resCode winSizeRsp dlgt now io => exact indicate_at tid
  | delbaReqRx p tid initiator io => exact indicate_at tid
  | delbaReq p t closeIo delbaIo => exact indicate_at t
  | delbaReqAll p closeIo delbaIo =>
    simp only [step, Op.handlers]
    by_cases active : s.isActive p
    · simp only [active, if_true, true_and]
      exact serveAll_at fun t => delbaReq (closeIo t) (delbaIo t)
    · rw [if_neg active, if_neg fun both => active both.1]
      exact .idle rfl rfl
  | ackOnBar p tid closeIo delbaIo => exact indicate_at tid
  | bar p tid io => exact indicate_at tid
  | qosWithoutReord p tid now io => exact indicate_at tid
  | baTxStatus p tid msg initiator status now io => exact indicate_at tid
  | iterate p now lastRx io =>
    simp only [step, Op.handlers]
    by_cases active : s.isActive p
    · simp only [active, if_true, true_and]
      obtain ⟨home, cfg⟩ := serveAll_frame (s := s) (p := p)
        fun t => checkDelbaTimeout (io t) now (lastRx t)
      have swept := (serveAll_at (s := s) (k := k) (p := p)
        fun t => checkDelbaTimeout (io t) now (lastRx t)).trans home cfg
          (serveAll_at (p := p) fun _ => checkAddbaResRxTimeout now)
      split at swept
      · rename_i peer
        rw [if_pos peer]
        exact swept
      · rename_i other
        rw [if_neg other]
        exact swept
    · rw [if_neg active, if_neg fun both => active both.1]
      exact .idle rfl rfl
  | txMsgCfm p t cfm => exact serve_at _
  | rxMsgCfm p t => exact serve_at _
  | reconfigure v cfg => exact .idle rfl rfl

/-! ## Histories -/

/-- The system with the history of each TID: what its handlers have put out, and marks `ε`
for what came from outside, in order. -/
structure Watched (ε π ν : Type) where
  sys : System π ν
  trace : π × Fin nofTids → List (ε ⊕ Out)

/-- A step of the system. The marks it is given come before what the handlers put out. -/
def Watched.step {ε : Type} (w : Watched ε π ν) (op : Op π ν)
    (marks : π × Fin nofTids → List ε) : Watched ε π ν where
  sys := Addba.step w.sys op
  trace := fun k => w.trace k ++ (marks k).map .inl ++
    ((Addba.step w.sys op).log k |>.drop (w.sys.log k).length).map .inr

theorem Watched.step_at {ε : Type} (w : Watched ε π ν) (op : Op π ν)
    (marks : π × Fin nofTids → List ε) (k : π × Fin nofTids) :
    ∃ out, Serves (w.sys.cfg (w.sys.home k.1) k.2) (w.sys.tid k) (op.handlers w.sys k)
        ((w.step op marks).sys.tid k) out ∧
      (w.step op marks).trace k = w.trace k ++ (marks k).map .inl ++ out.map .inr := by
  obtain ⟨out, serves, logged⟩ := Addba.step_at w.sys op k
  refine ⟨out, serves, ?_⟩
  simp only [Watched.step, logged, List.drop_left]

end Wave300.Addba
