import Wave300.Startup.Refinement

/-!
# Objects that are started again and again

An object is initialized, used and cleaned up in turn. All that its bit fields and counters are for
is one plan, which is there while the object is initialized.
-/

namespace Wave300.Startup

open Lib

variable {σ : Type*} {l : List (Step σ)} {o : Obj σ}

inductive Op (σ : Type*) where
  | init
  | use (f : σ → σ)
  | cleanup

def Obj.op (l : List (Step σ)) (o : Obj σ) : Op σ → Except Fault (Obj σ)
  | .init => return (← o.init l).1
  | .use f => .ok { o with world := f o.world }
  | .cleanup => o.cleanup l

/-- An object with its plan instead of bit fields and counters. -/
structure Owned (σ : Type*) where
  world : σ
  plan : Option (Plan σ)

def Owned.op (l : List (Stage σ)) (a : Owned σ) : Op σ → Except Fault (Owned σ)
  | .init =>
    let r := Stage.attempt l a.world
    .ok ⟨r.state, if r.ok then some r.plan else none⟩
  | .use f => .ok { a with world := f a.world }
  | .cleanup =>
    match a.plan with
    | none => .error .unexpectedCleanup
    | some p => .ok ⟨p.follow a.world, none⟩

/-- No object is initialized twice without a cleanup in between. -/
def Legal (l : List (Stage σ)) : Owned σ → List (Op σ) → Prop
  | _, [] => True
  | a, op :: ops => (op matches .init → a.plan = none) ∧ ∀ a', a.op l op = .ok a' → Legal l a' ops

/-- The object stands for one with a plan. -/
structure Stands (l : List (Step σ)) (o : Obj σ) (a : Owned σ) : Prop where
  world : o.world = a.world
  idle : a.plan = none → Fresh o
  busy : ∀ p, a.plan = some p → Inited l o p

theorem Fresh.stands (h : Fresh o) (l : List (Step σ)) : Stands l o ⟨o.world, none⟩ :=
  ⟨rfl, fun _ => h, nofun⟩

theorem Stands.init {a : Owned σ} (h : Stands l o a) (room : l.length < 31)
    (idle : a.plan = none) : ∃ o' a', o.op l .init = .ok o' ∧
      a.op (l.map Step.toStage) .init = .ok a' ∧ Stands l o' a' := by
  obtain ⟨o', run, world, went, failed⟩ := (h.idle idle).init l room
  refine ⟨o', _, by rw [Obj.op, run]; rfl, rfl, ?_⟩
  rw [h.world] at world went failed
  refine ⟨world, fun none => failed ?_, fun p some => ?_⟩
  · by_contra ok
    rw [Bool.not_eq_false] at ok
    rw [if_pos ok] at none
    cases none
  · split at some
    case isTrue ok =>
      cases some
      exact went ok
    case isFalse => cases some

theorem Stands.use {a : Owned σ} (h : Stands l o a) (f : σ → σ) :
    Stands l { o with world := f o.world } { a with world := f a.world } where
  world := congrArg f h.world
  idle := fun none => ⟨(h.idle none).main, (h.idle none).skipped, (h.idle none).loops⟩
  busy := fun p some => ⟨(h.busy p some).cleanup⟩

theorem Stands.cleanup {a : Owned σ} (h : Stands l o a) :
    (o.op l .cleanup = .error .unexpectedCleanup ∧
      a.op (l.map Step.toStage) .cleanup = .error .unexpectedCleanup) ∨
    ∃ o' a', o.op l .cleanup = .ok o' ∧ a.op (l.map Step.toStage) .cleanup = .ok a' ∧
      Stands l o' a' := by
  cases plan : a.plan with
  | none =>
    refine .inl ⟨(h.idle plan).cleanup l, ?_⟩
    rw [Owned.op, plan]
  | some p =>
    obtain ⟨o', run, fresh, world⟩ := (h.busy p plan).cleanup o.world
    refine .inr ⟨o', ⟨p.follow a.world, none⟩, run, by rw [Owned.op, plan], ?_⟩
    exact ⟨by rw [world, h.world], fun _ => fresh, nofun⟩

/-- Whatever is done to an object, as long as it is not initialized twice, has the result that it
has with a plan in place of the bit fields: init makes all its stages or undoes those it made, the
last one first, a cleanup undoes exactly what the last init made, and only a cleanup of an object
that is not initialized is reported. -/
theorem startup_keeps_plan (l : List (Step σ)) (room : l.length < 31) (o : Obj σ)
    (fresh : Fresh o) (ops : List (Op σ))
    (legal : Legal (l.map Step.toStage) ⟨o.world, none⟩ ops) :
    (ops.foldlM (Obj.op l) o).map Obj.world =
      (ops.foldlM (Owned.op (l.map Step.toStage)) ⟨o.world, none⟩).map Owned.world := by
  have start := fresh.stands l
  generalize (⟨o.world, none⟩ : Owned σ) = a at legal start
  clear fresh
  induction ops generalizing o a with
  | nil => exact congrArg Except.ok start.world
  | cons op ops ih =>
    obtain ⟨idle, later⟩ := legal
    have next : (o.op l op = .error .unexpectedCleanup ∧
        a.op (l.map Step.toStage) op = .error .unexpectedCleanup) ∨
        ∃ o' a', o.op l op = .ok o' ∧ a.op (l.map Step.toStage) op = .ok a' ∧
          Stands l o' a' := by
      cases op with
      | init => exact .inr (start.init room (idle rfl))
      | use f => exact .inr ⟨_, _, rfl, rfl, start.use f⟩
      | cleanup => exact start.cleanup
    rw [List.foldlM_cons, List.foldlM_cons]
    rcases next with ⟨reported, reported'⟩ | ⟨o', a', done, done', stands⟩
    · rw [reported, reported']
      rfl
    · rw [done, done']
      exact ih o' a' (later a' done') stands

/-- A step and a loop of three repetitions, the last of which fails in a world that is used up. -/
def threeBuffers : List (Step (List Nat)) := [
  { wanted := fun _ => true, times := 1, act := fun _ s => (0 :: s, true),
    undo := fun _ s => s.erase 0, loop := false, fits := rfl, always := nofun },
  { wanted := fun _ => true, times := 3,
    act := fun n s => if s.length < 4 then ((n + 1) :: s, true) else (s, false),
    undo := fun n s => s.erase (n + 1), loop := true, fits := by decide, always := fun _ _ => rfl }]

/-- The second init fails in its loop, and the cleanup that follows is reported. -/
theorem startup_keeps_plan_of_threeBuffers :
    ([.init, .cleanup, .use (fun s => 9 :: s), .init, .cleanup].foldlM (Obj.op threeBuffers)
        ⟨0, 0, fun _ => 0, []⟩).map Obj.world =
      ([.init, .cleanup, .use (fun s => 9 :: s), .init, .cleanup].foldlM
        (Owned.op (threeBuffers.map Step.toStage)) ⟨[], none⟩).map Owned.world := by
  apply startup_keeps_plan threeBuffers (by decide) ⟨0, 0, fun _ => 0, []⟩
    ⟨rfl, rfl, fun _ => rfl⟩
  refine ⟨fun _ => rfl, ?_⟩
  rintro _ ⟨⟩
  refine ⟨nofun, ?_⟩
  rintro _ ⟨⟩
  refine ⟨nofun, ?_⟩
  rintro _ ⟨⟩
  refine ⟨fun _ => rfl, ?_⟩
  rintro _ ⟨⟩
  exact ⟨nofun, nofun⟩

end Wave300.Startup
