import Mathlib.Data.List.FinRange
import Wave300.L2nat.Table
import Wave300.Lib.Columns

/-!
# The access-control list

`core_ext.c`: `mtlk_core_set_acl` and `mtlk_core_del_acl` on the addresses and the masks of
`nic_slow_ctx`. The zero address stands for a free place, and in a request for the whole list.
-/

namespace Wave300.Config

open L2nat Lib

/-- `MAX_ADDRESSES_IN_ACL` -/
def maxAddressesInAcl : Nat := 32

/-- `EMPTY_MAC_MASK` -/
def emptyMacMask : Mac := BitVec.allOnes 48

/-- The codes of `mtlkerr.h` that are returned here. -/
inductive Err where
  | ok
  | params
  | noResources
  deriving DecidableEq, Repr

/-- `acl` and `acl_mask` -/
structure Acl where
  acl : Fin maxAddressesInAcl → Mac
  aclMask : Fin maxAddressesInAcl → Mac

/-- A call from the configuration. The mask may be absent. -/
inductive Call where
  | set (mac : Mac) (macMask : Option Mac)
  | del (mac : Mac)

def Call.mac : Call → Mac
  | set mac _ => mac
  | del mac => mac

/-- The place of an address, and the first that is free. -/
def findAclEntry (list : Fin maxAddressesInAcl → Mac) (mac : Mac) :
    Option (Fin maxAddressesInAcl) × Option (Fin maxAddressesInAcl) :=
  let places := List.finRange maxAddressesInAcl
  (places.find? fun i => list i = mac, places.find? fun i => list i = 0)

namespace Acl

/-- After the allocation of the context. -/
def init : Acl := ⟨fun _ => 0, fun _ => 0⟩

/-- `mtlk_core_set_acl`. An address that is on the list already is not changed. -/
def set (a : Acl) (mac : Mac) (macMask : Option Mac) : Acl × Err :=
  if mac = 0 then (a, .ok)
  else if macMask.any fun mask => mac &&& mask ≠ mac then (a, .params)
  else
    match findAclEntry a.acl mac with
    | (some _, _) => (a, .ok)
    | (none, none) => (a, .noResources)
    | (none, some free) =>
      ({ acl := Function.update a.acl free mac
         aclMask := Function.update a.aclMask free (macMask.getD emptyMacMask) }, .ok)

/-- `mtlk_core_del_acl`. The masks stay when the whole list goes. -/
def del (a : Acl) (mac : Mac) : Acl × Err :=
  if mac = 0 then ({ a with acl := fun _ => 0 }, .ok)
  else
    match (findAclEntry a.acl mac).1 with
    | none => (a, .params)
    | some idx =>
      ({ acl := Function.update a.acl idx 0
         aclMask := Function.update a.aclMask idx emptyMacMask }, .ok)

def call (a : Acl) : Call → Acl × Err
  | .set mac macMask => a.set mac macMask
  | .del mac => a.del mac

def run (calls : List Call) : Acl := calls.foldl (fun a c => (a.call c).1) init

/-- The list has an address. -/
def Lists (a : Acl) (mac : Mac) : Prop := ∃ i, a.acl i = mac

instance (a : Acl) (mac : Mac) : Decidable (a.Lists mac) := inferInstanceAs (Decidable (∃ _, _))

/-- The list has an address with a mask. -/
def Has (a : Acl) (mac mask : Mac) : Prop := Maps a.acl a.aclMask mac mask

/-- What a call does that succeeds. -/
def Done (a a' : Acl) : Call → Prop
  | .set mac macMask => mac ≠ 0 →
    if a.Lists mac then a' = a else a'.Has mac (macMask.getD emptyMacMask)
  | .del mac => ∀ gone, gone ≠ 0 → mac = 0 ∨ gone = mac → ¬ a'.Lists gone

/-- What a call makes of the list as a map. -/
structure Mapped (a a' : Acl) (res : Err) (c : Call) : Prop where
  others : c.mac ≠ 0 → ∀ mac mask, mac ≠ 0 → mac ≠ c.mac → (a'.Has mac mask ↔ a.Has mac mask)
  done : res = .ok → a.Done a' c
  failed : res ≠ .ok → a' = a

end Acl

theorem findAclEntry_found {list : Fin maxAddressesInAcl → Mac} {mac : Mac}
    {idx : Fin maxAddressesInAcl} (found : (findAclEntry list mac).1 = some idx) :
    list idx = mac := by
  simpa using List.find?_some found

theorem findAclEntry_absent {list : Fin maxAddressesInAcl → Mac} {mac : Mac}
    (absent : (findAclEntry list mac).1 = none) (i : Fin maxAddressesInAcl) : list i ≠ mac := by
  simpa using List.find?_eq_none.1 absent i (List.mem_finRange i)

theorem findAclEntry_free {list : Fin maxAddressesInAcl → Mac} {mac : Mac}
    {free : Fin maxAddressesInAcl} (found : (findAclEntry list mac).2 = some free) :
    list free = 0 := by
  simpa using List.find?_some found

namespace Acl

variable {a : Acl} {mac : Mac} {macMask : Option Mac}

/-- What is left alone is as it was. -/
theorem Mapped.refl {res : Err} {c : Call} (done : res = .ok → a.Done a c) : a.Mapped a res c :=
  ⟨fun _ _ _ _ _ => Iff.rfl, done, fun _ => rfl⟩

theorem set_mapped (h : Distinct 0 a.acl) : Distinct 0 (a.set mac macMask).1.acl ∧
    a.Mapped (a.set mac macMask).1 (a.set mac macMask).2 (.set mac macMask) := by
  unfold set
  split
  next zero => exact ⟨h, .refl fun _ some => absurd zero some⟩
  next some =>
    split
    next => exact ⟨h, .refl fun ok => by cases ok⟩
    next =>
      split
      next idx _ found =>
        have listed : a.Lists mac := ⟨idx, findAclEntry_found (congrArg Prod.fst found)⟩
        exact ⟨h, .refl fun _ _ => by rw [if_pos listed]⟩
      next => exact ⟨h, .refl fun ok => by cases ok⟩
      next free found =>
        have absent := findAclEntry_absent (congrArg Prod.fst found)
        have empty := findAclEntry_free (congrArg Prod.snd found)
        refine ⟨h.fill absent free, ⟨fun _ other mask nonzero ne => ?_, fun _ _ => ?_,
          fun failed => absurd rfl failed⟩⟩
        · exact maps_update_other (by rw [empty]; exact nonzero.symm) ne.symm _
        · rw [if_neg fun listed => listed.elim absent]
          exact maps_update_self ..

theorem del_mapped (h : Distinct 0 a.acl) : Distinct 0 (a.del mac).1.acl ∧
    a.Mapped (a.del mac).1 (a.del mac).2 (.del mac) := by
  unfold del
  split
  next zero =>
    refine ⟨fun i j some => absurd rfl some, ⟨fun some => absurd zero some, ?_,
      fun failed => absurd rfl failed⟩⟩
    rintro - gone nonzero - ⟨i, there⟩
    exact nonzero there.symm
  next some =>
    split
    next => exact ⟨h, .refl fun ok => by cases ok⟩
    next idx found =>
      have there := findAclEntry_found found
      refine ⟨h.clear idx, ⟨fun _ other mask nonzero ne => ?_, ?_,
        fun failed => absurd rfl failed⟩⟩
      · exact maps_update_other (by rw [there]; exact ne.symm) nonzero.symm _
      · rintro - gone nonzero (zero | rfl) ⟨i, still⟩
        · exact some zero
        · simp only at still
          by_cases here : i = idx
          · rw [here, Function.update_self] at still
            exact nonzero still.symm
          · rw [Function.update_of_ne here] at still
            exact here (h i idx (by rw [still]; exact nonzero) (still.trans there.symm))

theorem call_mapped (h : Distinct 0 a.acl) (c : Call) :
    Distinct 0 (a.call c).1.acl ∧ a.Mapped (a.call c).1 (a.call c).2 c := by
  cases c with
  | set mac macMask => exact set_mapped h
  | del mac => exact del_mapped h

theorem run_distinct (calls : List Call) : Distinct 0 (run calls).acl := by
  have start : Distinct 0 init.acl := fun _ _ some => absurd rfl some
  unfold run
  generalize init = a at start
  induction calls generalizing a with
  | nil => exact start
  | cons c calls ih => exact ih _ (call_mapped start c).1

/-- After any calls, the list is a map, and the next call does to it what is asked. -/
theorem acl_mapped (calls : List Call) (c : Call) :
    Distinct 0 (run calls).acl ∧
      (run calls).Mapped ((run calls).call c).1 ((run calls).call c).2 c :=
  ⟨run_distinct calls, (call_mapped (run_distinct calls) c).2⟩

/-- An address is not given another mask. -/
theorem acl_not_remapped : ¬ ∀ (calls : List Call) (mac : Mac) (macMask : Option Mac), mac ≠ 0 →
    ((run calls).set mac macMask).2 = .ok →
      ((run calls).set mac macMask).1.Has mac (macMask.getD emptyMacMask) := by
  intro all
  obtain ⟨i, here, mask⟩ := all [.set 0x001122000000 none] 0x001122000000 (some 0xFFFFFF000000)
    (by decide) (by decide)
  revert i
  decide

end Acl

end Wave300.Config
