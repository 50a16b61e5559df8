import Mathlib.Logic.Function.Basic
import Wave300.Lib.Trace

/-!
# Flow control

`mtlkflctrl.c`, function by function. Each call runs under the object's lock, so a call is
one step. `calls` is not in `mtlk_flctrl_t`: it records the callbacks of the api, in the
order in which they were made.
-/

namespace Wave300.Flow

/-- The two callbacks of `mtlk_flctrl_api_t`. -/
inductive Callback where
  | startData
  | stopData
  deriving DecidableEq, Repr

/-- `mtlk_flctrl_t` -/
structure Flctrl where
  stopRequestsMask : BitVec 32
  availableBits : BitVec 32
  calls : List Callback
  deriving DecidableEq, Repr

/-- `MAX_NOF_AVAILABLE_BITS` -/
def maxNofAvailableBits : Nat := 32

/-- `mtlk_flctrl_init` -/
def Flctrl.init : Flctrl := ⟨0x00000000, 0xFFFFFFFF, []⟩

/-- The loop of `mtlk_flctrl_register`, with the iterations that are left. -/
def freeBit (available : BitVec 32) : Nat → BitVec 32 → Option (BitVec 32)
  | 0, _ => none
  | i + 1, mask =>
    if available &&& mask ≠ 0 then some mask else freeBit available i (mask <<< 1)

/-- `mtlk_flctrl_register`: the id, unless all bits are taken. -/
def Flctrl.register (obj : Flctrl) : Flctrl × Option (BitVec 32) :=
  match freeBit obj.availableBits maxNofAvailableBits 0x00000001 with
  | some mask => ({ obj with availableBits := obj.availableBits &&& ~~~mask }, some mask)
  | none => (obj, none)

/-- `mtlk_flctrl_stop_data` -/
def Flctrl.stopData (obj : Flctrl) (id : BitVec 32) : Flctrl :=
  { obj with
    calls := if obj.stopRequestsMask = 0 then obj.calls ++ [.stopData] else obj.calls
    stopRequestsMask := obj.stopRequestsMask ||| id }

/-- `mtlk_flctrl_start_data` -/
def Flctrl.startData (obj : Flctrl) (id : BitVec 32) : Flctrl :=
  let mask := obj.stopRequestsMask &&& ~~~id
  { obj with
    stopRequestsMask := mask
    calls := if mask = 0 then obj.calls ++ [.startData] else obj.calls }

/-- `mtlk_flctrl_unregister`. The request of the id stays in `stop_requests_mask`. -/
def Flctrl.unregister (obj : Flctrl) (id : BitVec 32) : Flctrl :=
  { obj with availableBits := obj.availableBits ||| id }

/-- The data path is stopped. -/
def Flctrl.Stopped (obj : Flctrl) : Prop := obj.calls.getLast? = some .stopData

instance (obj : Flctrl) : Decidable obj.Stopped := inferInstanceAs (Decidable (_ = _))

/-- A module between its `mtlk_flctrl_register` and its `mtlk_flctrl_unregister`: the id it
got, and whether it called `stop_data` and not `start_data` since. -/
structure Client where
  id : BitVec 32
  stopping : Bool
  deriving DecidableEq, Repr

/-- The object with its clients. -/
structure System (κ : Type) where
  obj : Flctrl
  client : κ → Option Client

inductive Act (κ : Type) where
  | register (c : κ)
  | stopData (c : κ)
  | startData (c : κ)
  | unregister (c : κ)
  deriving DecidableEq, Repr

variable {κ : Type} [DecidableEq κ]

def System.init : System κ := ⟨.init, fun _ => none⟩

/-- The call of a client that is registered, with the id it holds. -/
def System.onClient (s : System κ) (c : κ) (call : Flctrl → BitVec 32 → Flctrl)
    (after : Client → Option Client) : System κ :=
  match s.client c with
  | some k => ⟨call s.obj k.id, Function.update s.client c (after k)⟩
  | none => s

def System.step (s : System κ) : Act κ → System κ
  | .register c =>
    let (obj, id) := s.obj.register
    ⟨obj, Function.update s.client c (id.map (⟨·, false⟩))⟩
  | .stopData c => s.onClient c .stopData fun k => some { k with stopping := true }
  | .startData c => s.onClient c .startData fun k => some { k with stopping := false }
  | .unregister c => s.onClient c .unregister fun _ => none

/-- A client registers when it is not registered, and calls the rest while it is. -/
def System.Calls (s : System κ) : Act κ → Prop
  | .register c => s.client c = none
  | .stopData c | .startData c | .unregister c => s.client c ≠ none

/-- Some client that is registered demands that no data flow. -/
def System.Demanded (s : System κ) : Prop := ∃ c k, s.client c = some k ∧ k.stopping = true

end Wave300.Flow
