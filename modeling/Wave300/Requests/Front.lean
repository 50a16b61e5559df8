import Wave300.Serializer.Completion

/-!
# Requests of the user

A request goes from `_mtlk_df_user_invoke_core` or `_mtlk_df_user_invoke_core_async` to
`mtlk_core_handle_tx_ctrl`, which executes it at once or gives it to the serializer, and its result
comes back through `mtlk_df_ui_req_complete`: the thread that waits is woken up, or the callback is
called. Tasks of the driver itself go through the serializer too, with no request.

Requests and tasks are numbered as they are issued. The number of one stands for its execution
context and for the command in it.
-/

namespace Wave300.Requests

open Serializer (Szr)

/-- `MTLK_ERR_NO_MEM`, `MTLK_ERR_NOT_READY` and `MTLK_ERR_BUSY`; `MTLK_ERR_OK` is 0. -/
def errNoMem : Int := -6

@[inherit_doc errNoMem]
def errNotReady : Int := -14

@[inherit_doc errNoMem]
def errBusy : Int := -22

/-- `MTLK_ABILITY_NONE` -/
def abilityNone : UInt32 := 0xFFFFFFFF

/-- `_MTLK_CORE_PRIORITY_...` -/
inductive Priority where
  | maintenance
  | network
  | internal
  | user
  | emergency
  deriving DecidableEq, Repr

def Priority.index : Priority → Nat
  | .maintenance => 0
  | .network => 1
  | .internal => 2
  | .user => 3
  | .emergency => 4

/-- `_MTLK_CORE_NUM_PRIORITIES` -/
def numPriorities : Nat := 5

inductive Origin where
  /-- a task of the driver, `mtlk_core_schedule_..._task` -/
  | task
  /-- `_mtlk_df_user_invoke_core` -/
  | waits
  /-- `_mtlk_df_user_invoke_core_async` -/
  | notified
  deriving DecidableEq, Repr

/-- `synchronous` says how the map of `mtlk_core_handle_tx_ctrl` has a request executed, `hasData`
that there is data for the clipboard. -/
structure Call where
  origin : Origin
  ability : UInt32
  priority : Priority
  synchronous : Bool
  hasData : Bool
  deriving DecidableEq, Repr

/-- The results of what is allocated and initialized for a call. -/
structure Granted where
  invocation : Bool
  clpb : Bool
  push : Bool
  event : Int
  context : Bool
  command : Int
  deriving DecidableEq, Repr

/-- A block of memory. It is broken by what is done to it when it is not there. -/
inductive Block where
  | none
  | live
  | freed
  | broken
  deriving DecidableEq, Repr

namespace Block

def touch : Block → Block
  | live => live
  | _ => broken

/-- `mtlk_osal_mem_free` -/
def free : Block → Block
  | live => freed
  | _ => broken

end Block

inductive Phase where
  | unissued
  /-- `mtlk_serializer_enqueue` is about to be called. -/
  | calling
  /-- The serializer has the command, and has not executed it. -/
  | pending
  /-- The completion event is set. -/
  | answered (res : Int)
  /-- The user has the result. -/
  | told (res : Int)
  /-- A task of the driver is over. -/
  | ended
  deriving DecidableEq, Repr

/-- A request. `handled` is what its task function returned, each time it was called, and `answers`
are the results given to `mtlk_df_ui_req_complete`. -/
structure Req where
  call : Call
  phase : Phase
  /-- `_core_async_exec_t` -/
  context : Block
  clpb : Block
  /-- `_async_invoke_ctx_t` -/
  invocation : Block
  handled : List Int
  answers : List Int
  deriving DecidableEq, Repr

namespace Req

def new (call : Call) : Req := ⟨call, .unissued, .none, .none, .none, [], []⟩

/-- The user is given a result. -/
def tell (res : Int) (q : Req) : Req := { q with phase := .told res }

/-- `mtlk_df_ui_req_complete`, with `_core_async_invoke_clb` -/
def complete (res : Int) (q : Req) : Req :=
  match q.call.origin with
  | .task => { q with phase := .ended }
  | .waits => { q with answers := q.answers ++ [res], phase := .answered res }
  | .notified =>
    { q with
      answers := q.answers ++ [res]
      phase := .told res
      clpb := q.clpb.free
      invocation := q.invocation.touch.free }

/-- The task function is called when its ability is enabled. What it does is not here, but for its
result and its use of the clipboard; so `GET_SERIALIZER_INFO` looks at nobody else's command. -/
def execute (enabled : Bool) (result : Int) (q : Req) : Req :=
  if enabled then
    let clpb := if q.call.origin = .task then q.clpb else q.clpb.touch
    { q with clpb := clpb, handled := q.handled ++ [result] }.complete result
  else q.complete errBusy

/-- `_mtlk_core_async_clb` -/
def asyncClb (enabled : Bool) (result : Int) (q : Req) : Req :=
  { q with context := q.context.touch }.execute enabled result

/-- `_mtlk_core_async_compl_clb` -/
def asyncComplClb (q : Req) : Req := { q with context := q.context.free }

/-- `_mtlk_core_execute_async_ex` before `mtlk_serializer_enqueue` -/
def executeAsync (g : Granted) (q : Req) : Req :=
  if !g.context then q.complete errNoMem
  else if g.command ≠ 0 then { q with context := Block.live.free }.complete g.command
  else { q with context := .live, phase := .calling }

/-- `mtlk_serializer_enqueue` refuses the command. -/
def refuse (res : Int) (q : Req) : Req := { q with context := q.context.free }.complete res

/-- `_mtlk_process_user_task_ex` -/
def process (enabled : Bool) (result : Int) (g : Granted) (q : Req) : Req :=
  if q.call.synchronous then q.execute enabled result else q.executeAsync g

/-- `_mtlk_df_user_invoke_core` before it waits -/
def invokeCore (enabled : Bool) (result : Int) (g : Granted) (q : Req) : Req :=
  if !g.clpb then q.tell errNoMem
  else if q.call.hasData && !g.push then { q with clpb := Block.live.free }.tell errNoMem
  else if g.event ≠ 0 then { q with clpb := Block.live.free }.tell g.event
  else { q with clpb := .live }.process enabled result g

/-- `_mtlk_df_user_invoke_core_async` -/
def invokeCoreAsync (enabled : Bool) (result : Int) (g : Granted) (q : Req) : Req :=
  if !g.invocation then q.tell errNoMem
  else if !g.clpb then { q with invocation := Block.live.free }.tell errNoMem
  else if q.call.hasData && !g.push then
    { q with clpb := Block.live.free, invocation := Block.live.free }.tell errNoMem
  else { q with clpb := .live, invocation := .live }.process enabled result g

def issue (enabled : Bool) (result : Int) (g : Granted) (q : Req) : Req :=
  match q.call.origin with
  | .task => q.executeAsync g
  | .waits => q.invokeCore enabled result g
  | .notified => q.invokeCoreAsync enabled result g

/-- `_mtlk_df_user_invoke_core` after it has waited: on success the clipboard goes to the caller. -/
def wake (q : Req) : Req :=
  match q.phase with
  | .answered res => if res = 0 then q.tell res else { q with clpb := q.clpb.free }.tell res
  | _ => q

end Req

/-- `abilities` tells of the abilities that are registered whether they are enabled. -/
structure Front where
  szr : Szr Nat
  abilities : UInt32 → Option Bool
  issued : Nat
  req : Nat → Req

namespace Front

def init : Front where
  szr := .init numPriorities
  abilities id := if id = abilityNone then some true else none
  issued := 0
  req _ := .new ⟨.task, abilityNone, .maintenance, false, false⟩

variable (handler : Nat → Int)

/-- `_mtlk_abmgr_is_ability_enabled` -/
def isAbilityEnabled (id : UInt32) (s : Front) : Bool := (s.abilities id).getD false

def modify (r : Nat) (f : Req → Req) (s : Front) : Front :=
  { s with req := Function.update s.req r (f (s.req r)) }

inductive Event where
  | issue (call : Call) (g : Granted)
  | enqueue (r : Nat)
  | wake (r : Nat)
  | work
  | notify
  | start
  | stop
  | stopStep
  /-- An ability is registered, unregistered, enabled or disabled. -/
  | ability (id : UInt32) (state : Option Bool)

/-- `mtlk_serializer_enqueue` for a request whose context is there -/
def enqueue (r : Nat) (s : Front) : Front :=
  if (s.req r).phase = .calling ∧ s.szr.notifying = false then
    if !s.szr.isRunning then s.modify r (Req.refuse errNotReady)
    else if s.szr.isInQueue r then s.modify r (Req.refuse errBusy)
    else
      { s.modify r fun q => { q with phase := .pending } with
        szr := s.szr.step (.enqueue (s.req r).call.priority.index r) }
  else s

/-- The next step of the worker, in which it calls what the command has as callbacks. -/
def work (s : Front) : Front :=
  let s' := { s with szr := s.szr.work }
  match s.szr.worker with
  | .run _ r _ => s'.modify r
    (Req.asyncClb (s.isAbilityEnabled (s.req r).call.ability) (handler r))
  | .complete r _ => s'.modify r Req.asyncComplClb
  | _ => s'

def step (s : Front) : Event → Front
  | .issue call g =>
    { s with
      issued := s.issued + 1
      req := Function.update s.req s.issued
        ((Req.new call).issue (s.isAbilityEnabled call.ability) (handler s.issued) g) }
  | .enqueue r => s.enqueue r
  | .wake r => s.modify r Req.wake
  | .work => s.work handler
  | .notify => { s with szr := s.szr.step .notify }
  | .start => { s with szr := s.szr.step .start }
  | .stop => { s with szr := s.szr.step .stop }
  | .stopStep => { s with szr := s.szr.step .stopStep }
  | .ability id state => { s with abilities := Function.update s.abilities id state }

end Front

end Wave300.Requests
