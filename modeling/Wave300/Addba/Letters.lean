import Wave300.Addba.Receiver

/-!
# What becomes of the messages of the RX side

Responses and DELBAs are numbered in the order they are sent. Each is confirmed by the
firmware, or cancelled before that, and reported on by a `BA_TX_STATUS` once it was on the
air. The messages that answer one ADDBA request form an exchange.
-/

namespace Wave300.Addba

open Wave300.Lib

/-- What has become of the confirmation of a message. -/
inductive Fate where
  | pending
  | accepted
  | refused
  | cancelled
  deriving DecidableEq, Repr

structure Letter where
  req : RxRequest
  exchange : Nat
  fate : Fate
  reported : Bool
  deriving DecidableEq, Repr

namespace Letter

def post (exchange : Nat) (req : RxRequest) : Letter := ⟨req, exchange, .pending, false⟩

/-- The fate of a message that waited for its confirmation is settled. -/
def settle (fate : Fate) (l : Letter) : Letter :=
  if l.fate = .pending then { l with fate := fate } else l

def report (l : Letter) : Letter := { l with reported := true }

/-- The firmware has not refused the message and will still report on it. -/
def Outstanding (l : Letter) : Prop :=
  (l.fate = .pending ∨ l.fate = .accepted) ∧ l.reported = false

instance (l : Letter) : Decidable l.Outstanding := inferInstanceAs (Decidable (_ ∧ _))

end Letter

/-- The RX side of a TID with its messages. -/
structure Desk where
  view : RxView
  exchange : Nat
  letters : List Letter

/-- The peers, with the messages of each TID. -/
structure Post (π ν : Type) where
  sys : System π ν
  exchange : π × Fin nofTids → Nat
  letters : π × Fin nofTids → List Letter

/-- What can happen: a call of the module, the confirmation of the message of a TID, accepted
or not, or the report on message `i` of a TID. -/
inductive Event (π ν : Type) where
  | call (op : Op π ν)
  | confirm (p : π) (t : Fin nofTids) (accepted : Bool)
  | report (p : π) (t : Fin nofTids) (i status now : Nat) (io : Io)

variable {π ν : Type} [DecidableEq π] [DecidableEq ν]

def Post.desk (w : Post π ν) (k : π × Fin nofTids) : Desk :=
  ⟨(w.sys.tid k).rxView, w.exchange k, w.letters k⟩

def Event.op (w : Post π ν) : Event π ν → Op π ν
  | call op => op
  | confirm p t _ => .rxMsgCfm p t
  | report p t i status now io =>
    match (w.letters (p, t))[i]? with
    | some l => .baTxStatus p t l.req.umi.1 l.req.umi.2 status now io
    | none => .baTxStatus p t .other false status now io

/-- The TID whose messages an event is about. -/
def Event.about (k : π × Fin nofTids) : Event π ν → Prop
  | call _ => False
  | confirm p t _ | report p t .. => k = (p, t)

/-- What an event tells about the messages of TID `k`. -/
def Event.mark (k : π × Fin nofTids) (ls : List Letter) : Event π ν → List Letter
  | call op => if op.stops k then ls.map (.settle .cancelled) else ls
  | confirm p t accepted =>
    if k = (p, t) then ls.map (.settle (if accepted then .accepted else .refused)) else ls
  | report p t i _ _ _ => if k = (p, t) then ls.modify i .report else ls

def Post.step (w : Post π ν) (e : Event π ν) : Post π ν where
  sys := Addba.step w.sys (e.op w)
  exchange := fun k => w.exchange k + ((e.op w).answers w.sys k).toNat
  letters := fun k => e.mark k (w.letters k) ++
    (mail ((Addba.step w.sys (e.op w)).log k |>.drop (w.sys.log k).length)).map
      (.post (w.exchange k + ((e.op w).answers w.sys k).toNat))

def Post.init (home : π → ν) (cfg : ν → Fin nofTids → TidCfg) (maxAggr maxReord : Nat) :
    Post π ν where
  sys := .init home cfg maxAggr maxReord
  exchange := fun _ => 0
  letters := fun _ => []

/-- How the firmware behaves: it reports once, and only on what it was sent and has not
refused. -/
def Event.Fair (w : Post π ν) : Event π ν → Prop
  | call op => op.Call
  | confirm .. => True
  | report p t i _ _ _ => ∃ l, (w.letters (p, t))[i]? = some l ∧ l.reported = false ∧
      l.fate ≠ .refused

instance (w : Post π ν) : (e : Event π ν) → Decidable (e.Fair w)
  | .call op => inferInstanceAs (Decidable op.Call)
  | .confirm .. => .isTrue trivial
  | .report p t i _ _ _ => inferInstanceAs (Decidable (∃ l ∈ (w.letters (p, t))[i]?, _ ∧ _))

/-- What an event does to a TID. -/
inductive DeskStep (active : Bool) (k : π × Fin nofTids) : Event π ν → Desk → Desk → Prop where
  | move {e d v' sent} (answers : Bool) (aside : ¬e.about k)
      (moved : RxMove answers d.view v' sent) :
      DeskStep active k e d ⟨v', d.exchange + answers.toNat,
        d.letters ++ sent.map (.post (d.exchange + answers.toNat))⟩
  | stop {e d} (aside : ¬e.about k) :
      DeskStep active k e d ⟨{ d.view.reset with manMsg := .detached }, d.exchange,
        d.letters.map (.settle .cancelled)⟩
  | confirm {d} (accepted : Bool) :
      DeskStep active k (.confirm k.1 k.2 accepted) d
        ⟨d.view.onCfm, d.exchange,
          d.letters.map (.settle (if accepted then .accepted else .refused))⟩
  | report {d v' sent} (i status now : Nat) (io : Io) (l : Letter) (up : active = true)
      (on : d.letters[i]? = some l) (first : l.reported = false) (known : l.fate ≠ .refused)
      (handled : RxReport io l.req (status = umiOk) d.view v' sent) :
      DeskStep active k (.report k.1 k.2 i status now io) d
        ⟨v', d.exchange, d.letters.modify i .report ++ sent.map (.post d.exchange)⟩
  | unheard {d} (i status now : Nat) (io : Io) (down : active = false) :
      DeskStep active k (.report k.1 k.2 i status now io) d
        ⟨d.view, d.exchange, d.letters.modify i .report⟩

omit [DecidableEq π] [DecidableEq ν] in
/-- An event that is about another TID. -/
theorem DeskStep.keep {active : Bool} {k : π × Fin nofTids} {e : Event π ν} (aside : ¬e.about k)
    (d : Desk) : DeskStep active k e d d := by
  have kept : DeskStep active k e d _ := .move false aside (.keep d.view)
  rw [List.map_nil, List.append_nil] at kept
  exact kept

/-! ## Steps -/

section
variable {w : Post π ν} {k : π × Fin nofTids}

/-- A TID is served by its handlers, and what they send is posted. -/
theorem Post.step_at (w : Post π ν) (e : Event π ν) (k : π × Fin nofTids) :
    ∃ out, Serves (w.sys.cfg (w.sys.home k.1) k.2) (w.sys.tid k) ((e.op w).handlers w.sys k)
        ((w.step e).sys.tid k) out ∧
      (w.step e).letters k = e.mark k (w.letters k) ++ (mail out).map
        (.post (w.exchange k + ((e.op w).answers w.sys k).toNat)) := by
  obtain ⟨out, serves, logged⟩ := Addba.step_at w.sys (e.op w) k
  refine ⟨out, serves, ?_⟩
  simp only [Post.step, logged, List.drop_left]

theorem Post.moved_at {op : Op π ν} (call : op.Call) (up : op.stops k = false) :
    ∃ sent, RxMove (op.answers w.sys k) (w.sys.tid k).rxView
        ((w.step (.call op)).sys.tid k).rxView sent ∧
      (w.step (.call op)).letters k = w.letters k ++
        sent.map (.post (w.exchange k + (op.answers w.sys k).toNat)) := by
  obtain ⟨out, serves, letters⟩ := w.step_at (.call op) k
  refine ⟨mail out, serves.rxMove call up, ?_⟩
  rw [letters, Event.mark, if_neg (Bool.eq_false_iff.1 up)]
  rfl

theorem Post.stopped_at {op : Op π ν} (stops : op.stops k = true) :
    ((w.step (.call op)).sys.tid k).rxView =
        { (w.sys.tid k).rxView.reset with manMsg := .detached } ∧
      (w.step (.call op)).letters k = (w.letters k).map (.settle .cancelled) ∧
      op.answers w.sys k = false := by
  obtain ⟨out, serves, letters⟩ := w.step_at (.call op) k
  obtain ⟨view, outs, unasked⟩ := serves.rxStop stops
  refine ⟨view, ?_, unasked⟩
  rw [letters, outs, Event.mark, if_pos stops, List.map_nil, List.append_nil]

theorem Post.confirmed_at (p : π) (t : Fin nofTids) (accepted : Bool) :
    ((w.step (.confirm p t accepted)).sys.tid (p, t)).rxView =
        (w.sys.tid (p, t)).rxView.onCfm ∧
      (w.step (.confirm p t accepted)).letters (p, t) =
        (w.letters (p, t)).map (.settle (if accepted then .accepted else .refused)) := by
  obtain ⟨out, serves, letters⟩ := w.step_at (.confirm p t accepted) (p, t)
  simp only [Event.op, Op.handlers, if_true] at serves
  obtain ⟨c, tid, fresh, -, same, rfl⟩ := serves.one
  obtain ⟨outs, view⟩ := onRxMsgCfm_confirms c
  constructor
  · rw [same, view, tid]
  · rw [letters, outs, fresh, Event.mark, if_pos rfl]
    exact List.append_nil _

/-- A report on a message, handed to a peer that is up. -/
theorem Post.reported_at {p : π} {t : Fin nofTids} {i : Nat} {l : Letter} (status now : Nat)
    (io : Io) (on : (w.letters (p, t))[i]? = some l) (up : w.sys.isActive p = true) :
    ∃ c : Ctx, c.tid = w.sys.tid (p, t) ∧ c.out = [] ∧
      (w.step (.report p t i status now io)).sys.tid (p, t) =
        (onBaTxStatus io now l.req.umi.1 l.req.umi.2 status c).tid ∧
      (w.step (.report p t i status now io)).letters (p, t) =
        (w.letters (p, t)).modify i .report ++
          (mail (onBaTxStatus io now l.req.umi.1 l.req.umi.2 status c).out).map
            (.post (w.exchange (p, t))) := by
  obtain ⟨out, serves, letters⟩ := w.step_at (.report p t i status now io) (p, t)
  simp only [Event.op, on, Op.handlers, Op.handlers.indicated] at serves
  rw [if_pos ⟨up, trivial, trivial⟩] at serves
  obtain ⟨c, tid, fresh, -, same, rfl⟩ := serves.one
  refine ⟨c, tid, fresh, same, ?_⟩
  rw [letters, Event.mark, if_pos rfl]
  simp only [Event.op, on]
  rfl

/-- A report that the peer is not there to take. -/
theorem Post.unheard_at {p : π} {t : Fin nofTids} {i : Nat} {l : Letter} (status now : Nat)
    (io : Io) (on : (w.letters (p, t))[i]? = some l) (down : w.sys.isActive p = false) :
    (w.step (.report p t i status now io)).sys.tid (p, t) = w.sys.tid (p, t) ∧
      (w.step (.report p t i status now io)).letters (p, t) =
        (w.letters (p, t)).modify i .report := by
  obtain ⟨out, serves, letters⟩ := w.step_at (.report p t i status now io) (p, t)
  simp only [Event.op, on, Op.handlers, Op.handlers.indicated] at serves
  rw [down, if_neg fun up => Bool.false_ne_true up.1] at serves
  obtain ⟨same, rfl⟩ := serves
  refine ⟨same, ?_⟩
  rw [letters, Event.mark, if_pos rfl]
  exact List.append_nil _

/-- A confirmation or a report that is about another TID. -/
theorem Post.aside_at {e : Event π ν} (fair : e.Fair w) (told : ∀ op, e ≠ .call op)
    (aside : ¬e.about k) : (w.step e).sys.tid k = w.sys.tid k ∧
      (w.step e).letters k = w.letters k ∧ (w.step e).exchange k = w.exchange k := by
  obtain ⟨out, serves, letters⟩ := w.step_at e k
  unfold Event.about at aside
  cases e with
  | call op => exact absurd rfl (told op)
  | confirm p t accepted =>
    simp only [Event.op, Op.handlers] at serves
    rw [if_neg aside] at serves
    obtain ⟨same, rfl⟩ := serves
    refine ⟨same, ?_, rfl⟩
    rw [letters, Event.mark, if_neg aside]
    exact List.append_nil _
  | report p t i status now io =>
    obtain ⟨l, on, -⟩ := fair
    simp only [Event.op, on, Op.handlers, Op.handlers.indicated] at serves
    rw [if_neg] at serves
    · obtain ⟨same, rfl⟩ := serves
      refine ⟨same, ?_, ?_⟩
      · rw [letters, Event.mark, if_neg aside]
        exact List.append_nil _
      · simp only [Post.step, Event.op, on]
        rfl
    · rintro ⟨-, peer, tid⟩
      exact aside (Prod.ext peer (Fin.ext tid.symm))

theorem Post.step_desk {e : Event π ν} (fair : e.Fair w) (k : π × Fin nofTids) :
    DeskStep (w.sys.isActive k.1) k e (w.desk k) ((w.step e).desk k) := by
  have desk {view : RxView} {exchange : Nat} {letters : List Letter}
      (same : ((w.step e).sys.tid k).rxView = view) (asked : (w.step e).exchange k = exchange)
      (posted : (w.step e).letters k = letters) :
      (w.step e).desk k = ⟨view, exchange, letters⟩ := by
    rw [← same, ← asked, ← posted]
    rfl
  have kept (told : ∀ op, e ≠ .call op) (aside : ¬e.about k) :
      DeskStep (w.sys.isActive k.1) k e (w.desk k) ((w.step e).desk k) := by
    obtain ⟨same, letters, asked⟩ := Post.aside_at fair told aside
    rw [desk (congrArg Tid.rxView same) asked letters]
    exact .keep aside _
  cases e with
  | call op =>
    cases up : op.stops k with
    | false =>
      obtain ⟨sent, moved, letters⟩ := Post.moved_at fair up
      rw [desk rfl rfl letters]
      exact .move (d := w.desk k) _ id moved
    | true =>
      obtain ⟨view, letters, unasked⟩ := w.stopped_at up
      rw [desk view (congrArg (w.exchange k + Bool.toNat ·) unasked) letters]
      exact .stop (d := w.desk k) id
  | confirm p t accepted =>
    by_cases here : k = (p, t)
    · subst here
      obtain ⟨view, letters⟩ := w.confirmed_at p t accepted
      rw [desk view rfl letters]
      exact .confirm (d := w.desk (p, t)) accepted
    · exact kept (by rintro _ ⟨⟩) here
  | report p t i status now io =>
    by_cases here : k = (p, t)
    · subst here
      obtain ⟨l, on, first, known⟩ := fair
      have asked : (w.step (.report p t i status now io)).exchange (p, t) =
          w.exchange (p, t) := by
        simp only [Post.step, Event.op, on]
        rfl
      cases active : w.sys.isActive p with
      | true =>
        obtain ⟨c, tid, fresh, same, letters⟩ := Post.reported_at status now io on active
        have handled := onBaTxStatus_report io now status l.req fresh
        rw [tid, ← same] at handled
        rw [desk rfl asked letters]
        exact .report (d := w.desk (p, t)) i status now io l rfl on first known handled
      | false =>
        obtain ⟨same, letters⟩ := Post.unheard_at status now io on active
        rw [desk (congrArg Tid.rxView same) asked letters]
        exact .unheard (d := w.desk (p, t)) i status now io rfl
    · exact kept (by rintro _ ⟨⟩) here

end

end Wave300.Addba
