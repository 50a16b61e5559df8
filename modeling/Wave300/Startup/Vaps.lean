import Wave300.Startup.Refinement

/-!
# The VAPs of a card

`mtlk_vap_manager.c`, with `_mmb_drv_init` and `_mmb_drv_cleanup` that bring a card up and down, and
the requests that add and remove VAPs in between. A step of an init that is not followed further
takes a resource or fails, and its cleanup gives the resource back. Nodes of VAPs are numbered in
the order in which they are allocated. `fault` tells that an assertion failed, that a NULL pointer
was followed, or that a node was freed twice; `bad` that something was given back that was not held.
-/

namespace Wave300.Startup

open Lib

/-- The steps of `_mtlk_vap_init` -/
inductive VapStep where
  | pdbCreate
  | dfCreate
  | abmgrCreate
  | coreApiAlloc
  | coreApiInit
  | irbdAlloc
  deriving DecidableEq

/-- The steps of `mtlk_vap_start` -/
inductive VapStart where
  | irbdInit
  | coreStart
  | dfStart
  deriving DecidableEq

/-- The steps of `_mmb_drv_init` that are not about VAPs -/
inductive DrvStep where
  | hwCardCreate
  | irqTaskletInit
  | ccrInit
  | vapManagerCreate
  | hwCardInit
  | txmmInit
  | txdmInit
  | irqStart
  | cardStart
  deriving DecidableEq

inductive Res where
  | drv (s : DrvStep)
  | vapNode (p : Nat)
  | vap (p : Nat) (s : VapStep)
  | started (p : Nat) (s : VapStart)
  | guestVapArray
  | coreArray
  | rcvry
  deriving DecidableEq

/-- What is held, and how many answers were used. -/
structure World where
  held : Multiset Res
  bad : Bool
  asked : Nat

/-- Answers say whether allocations and steps succeed. -/
def World.take (env : Nat → Bool) (r : Res) (w : World) : World × Bool :=
  if env w.asked then (⟨r ::ₘ w.held, w.bad, w.asked + 1⟩, true)
  else (⟨w.held, w.bad, w.asked + 1⟩, false)

def World.give (r : Res) (w : World) : World :=
  if r ∈ w.held then { w with held := w.held.erase r } else { w with bad := true }

/-- A step that takes a resource, and gives it back when it is undone. -/
def taking (env : Nat → Bool) (r : Res) : Step World where
  wanted _ := true
  times := 1
  act _ w := w.take env r
  undo _ w := w.give r
  loop := false
  fits := once_fits
  always loop := once_always loop

def vapSteps (env : Nat → Bool) (p : Nat) : List (Step World) :=
  [.pdbCreate, .dfCreate, .abmgrCreate, .coreApiAlloc, .coreApiInit, .irbdAlloc].map
    fun s => taking env (.vap p s)

def vapStartSteps (env : Nat → Bool) (p : Nat) : List (Step World) :=
  [.irbdInit, .coreStart, .dfStart].map fun s => taking env (.started p s)

/-- `id` and the bit fields of `mtlk_vap_info_internal_t` -/
structure VapNode where
  id : Nat
  initMain : Field
  initSkipped : Field
  startMain : Field
  startSkipped : Field

/-- `mtlk_vap_manager_t`, with the nodes that were allocated. -/
structure Manager where
  masterVap : Option Nat
  guestVapArray : Option (Nat → Option Nat)
  coreArray : Bool
  maxVapsCount : Nat
  hwIrbd : Bool
  nodes : Nat → Option VapNode
  nextNode : Nat
  world : World
  fault : Bool

namespace Manager

variable (env : Nat → Bool) (m : Manager)

def failed : Manager := { m with fault := true }

def setNode (p : Nat) (node : VapNode) : Manager :=
  { m with nodes := Function.update m.nodes p (some node) }

/-- `__mtlk_vap_manager_vap_handle_by_id`, which takes a `uint8`. -/
def vapHandleById (vapId : Nat) : Option Nat :=
  match m.guestVapArray.bind (· (vapId % 256)) with
  | some p => some p
  | none => if vapId % 256 = 0 then m.masterVap else none

/-- `mtlk_osal_mem_free` of a node -/
def freeNode (o : Option Nat) : Manager :=
  match o.filter fun p => (m.nodes p).isSome with
  | some p =>
    { m with nodes := Function.update m.nodes p none, world := m.world.give (.vapNode p) }
  | none => m.failed

/-- The steps of an object in its node, and what becomes of the node. -/
def vapInit (p : Nat) (node : VapNode) : Manager × Bool :=
  match Obj.init (vapSteps env p) ⟨node.initMain, node.initSkipped, fun _ => 0, m.world⟩ with
  | .ok (o, ok) =>
    ({ m with world := o.world }.setNode p
      { node with initMain := o.main, initSkipped := o.skipped }, ok)
  | .error _ => (m.failed, false)

def vapCleanup (p : Nat) (node : VapNode) : Manager :=
  match Obj.cleanup (vapSteps env p) ⟨node.initMain, node.initSkipped, fun _ => 0, m.world⟩ with
  | .ok o =>
    { m with world := o.world }.setNode p { node with initMain := o.main, initSkipped := o.skipped }
  | .error _ => m.failed

/-- `mtlk_vap_manager_create_vap` -/
def createVap (vapIndex : Nat) : Manager × Option Nat :=
  let index := vapIndex % 256
  if m.maxVapsCount ≤ index then (m, none)
  else if (m.vapHandleById index).isSome then (m, none)
  else
    let p := m.nextNode
    let r := m.world.take env (.vapNode p)
    let m := { m with world := r.1 }
    if !r.2 then (m, none)
    else
      let r := { m with nextNode := p + 1 }.vapInit env p ⟨index, 0, 0, 0, 0⟩
      let m := r.1
      if !r.2 then (m.freeNode (some p), none)
      else if index = 0 then ({ m with masterVap := some p }, some p)
      else
        match m.guestVapArray with
        | none => (m.failed, none)
        | some g => ({ m with guestVapArray := some (Function.update g index (some p)) }, some p)

/-- `mtlk_vap_delete` -/
def vapDelete (p : Nat) : Manager :=
  match m.nodes p with
  | none => m.failed
  | some node =>
    if m.maxVapsCount ≤ node.id then m.failed
    else
      let m := m.vapCleanup env p node
      let m :=
        match m.guestVapArray with
        | none => m
        | some g =>
          { m.freeNode (g node.id) with guestVapArray := some (Function.update g node.id none) }
      if node.id = 0 then { m.freeNode m.masterVap with masterVap := none } else m

/-- `mtlk_vap_start` -/
def vapStart (p : Nat) : Manager × Bool :=
  match m.nodes p with
  | none => (m.failed, false)
  | some node =>
    if m.maxVapsCount ≤ node.id then (m.failed, false)
    else if (m.guestVapArray.bind (· node.id)).isNone ∨ !m.hwIrbd then (m.failed, false)
    else
      match Obj.init (vapStartSteps env p)
        ⟨node.startMain, node.startSkipped, fun _ => 0, m.world⟩ with
      | .ok (o, ok) =>
        ({ m with world := o.world }.setNode p
          { node with startMain := o.main, startSkipped := o.skipped }, ok)
      | .error _ => (m.failed, false)

/-- `mtlk_vap_stop` -/
def vapStop (p : Nat) : Manager :=
  match m.nodes p with
  | none => m.failed
  | some node =>
    match Obj.cleanup (vapStartSteps env p)
      ⟨node.startMain, node.startSkipped, fun _ => 0, m.world⟩ with
    | .ok o =>
      { m with world := o.world }.setNode p
        { node with startMain := o.main, startSkipped := o.skipped }
    | .error _ => m.failed

/-- A loop over the VAPs of some indices. -/
def eachVap (f : Manager → Nat → Manager) : List Nat → Manager → Manager
  | [], m => m
  | i :: is, m =>
    match m.vapHandleById i with
    | some p => eachVap f is (f m p)
    | none => eachVap f is m

/-- `mtlk_vap_manager_prepare_stop`: the core of each VAP is called. -/
def prepareStop : Manager :=
  let m := eachVap (fun m p => if (m.nodes p).isSome then m else m.failed)
    (List.range m.maxVapsCount).reverse m
  { m with hwIrbd := false }

/-- `_mtlk_core_mbss_add_vap`; `get_prop` of the type of the card succeeds or fails. -/
def mbssAddVap (vapIndex : Nat) (cardType : Bool) : Manager :=
  if m.maxVapsCount ≤ vapIndex then m
  else if !cardType then m
  else
    match m.createVap env vapIndex with
    | (m, none) => m
    | (m, some p) =>
      let r := m.vapStart env p
      if r.2 then r.1 else r.1.vapDelete env p

/-- `_mtlk_core_mbss_del_vap`, of a VAP whose network state allows it or not -/
def mbssDelVap (vapIndex : Nat) (state : Bool) : Manager :=
  if m.maxVapsCount ≤ vapIndex then m
  else
    match m.vapHandleById vapIndex with
    | none => m
    | some p =>
      match m.nodes p with
      | none => m.failed
      | some node =>
        if node.id = 0 then m
        else if !state then m
        else (m.vapStop env p).vapDelete env p

inductive Request where
  | mbssAddVap (vapIndex : Nat) (cardType : Bool)
  | mbssDelVap (vapIndex : Nat) (state : Bool)

def request : Request → Manager
  | .mbssAddVap vapIndex cardType => m.mbssAddVap env vapIndex cardType
  | .mbssDelVap vapIndex state => m.mbssDelVap env vapIndex state

/-- Before the card is brought up. -/
def start : Manager where
  masterVap := none
  guestVapArray := none
  coreArray := false
  maxVapsCount := 1
  hwIrbd := false
  nodes _ := none
  nextNode := 0
  world := ⟨0, false, 0⟩
  fault := false

end Manager

/-! ## The driver -/

end Wave300.Startup
