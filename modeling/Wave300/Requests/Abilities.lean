import Wave300.Hash.Table
import Wave300.Requests.Front

/-!
# Abilities

`mtlk_ab_manager.c` and `core_ab.c`: the modules of the core register what they are able to do, a
set at a time, in a hash of records that are allocated. A request is executed when its ability is
enabled. Whatever is allocated or not, a set is registered as a whole or not at all.
-/

namespace Wave300.Requests

open Hash Lib

/-- `_mtlk_hash_abmgr_hashval` -/
def abmgr : KeyType UInt32 where
  hash key nofBuckets := (key * 31).toNat % nofBuckets
  lt _ _ pos := Nat.mod_lt _ pos

/-- `mtlk_abmgr_t`. A record is the number of the attempt to allocate it. -/
structure Abmgr where
  table : Table UInt32 Nat
  enabled : Nat → Bool
  allocated : Nat → Bool
  next : Nat

namespace Abmgr

/-- `mtlk_abmgr_register_ability`; there is no result when an assertion fails. -/
def registerAbility (env : Nat → Bool) (m : Abmgr) (id : UInt32) : Option (Abmgr × Int) :=
  if env m.next then
    match m.table.insert abmgr id m.next with
    | some (table, none) => some ({
        table
        enabled := Function.update m.enabled m.next false
        allocated := Function.update m.allocated m.next true
        next := m.next + 1 }, 0)
    | _ => none
  else some ({ m with next := m.next + 1 }, errNoMem)

/-- The record of an ability, which is asserted to be there. -/
def record (m : Abmgr) (id : UInt32) : Option Nat := (m.table.find abmgr id).bind fun entry => entry

/-- `mtlk_abmgr_unregister_ability`; a record that is not allocated is not freed. -/
def unregisterAbility (m : Abmgr) (id : UInt32) : Option Abmgr :=
  (m.record id).bind fun r =>
    if m.enabled r = false ∧ m.allocated r = true then some { m with
      table := m.table.remove r
      allocated := Function.update m.allocated r false }
    else none

/-- `_mtlk_abmgr_set_ability_state` -/
def setAbilityState (state : Bool) (m : Abmgr) (id : UInt32) : Option Abmgr :=
  (m.record id).map fun r => { m with enabled := Function.update m.enabled r state }

/-- `_mtlk_abmgr_is_ability_registered` -/
def isAbilityRegistered (m : Abmgr) (id : UInt32) : Option Bool :=
  (m.table.find abmgr id).map Option.isSome

/-- `_mtlk_abmgr_is_ability_enabled` -/
def isAbilityEnabled (m : Abmgr) (id : UInt32) : Option Bool :=
  (m.table.find abmgr id).map fun entry => entry.any m.enabled

/-- `mtlk_abmgr_enable_ability_set` and `mtlk_abmgr_disable_ability_set` -/
def setAbilitySet (state : Bool) (m : Abmgr) (ids : List UInt32) : Option Abmgr :=
  ids.foldlM (setAbilityState state) m

/-- `mtlk_abmgr_unregister_ability_set` -/
def unregisterAbilitySet (m : Abmgr) (ids : List UInt32) : Option Abmgr :=
  ids.foldlM unregisterAbility m

/-- The loop of `mtlk_abmgr_register_ability_set`, with those that are registered already. -/
def registerLoop (env : Nat → Bool) (before : List UInt32) (m : Abmgr) :
    List UInt32 → Option (Abmgr × Int)
  | [] => some (m, 0)
  | id :: ids =>
    (m.registerAbility env id).bind fun (m', res) =>
      if res = 0 then m'.registerLoop env (before ++ [id]) ids
      else (m'.unregisterAbilitySet before).map (·, res)

/-- `mtlk_abmgr_register_ability_set` -/
def registerAbilitySet (env : Nat → Bool) (m : Abmgr) (ids : List UInt32) : Option (Abmgr × Int) :=
  m.registerLoop env [] ids

/-- `mtlk_core_abilities_unregister`, with the sets of the table for the role of the core -/
def coreAbilitiesUnregister (m : Abmgr) (tabl : List (List UInt32)) : Option Abmgr :=
  tabl.foldlM (fun m ids => (m.setAbilitySet false ids).bind (·.unregisterAbilitySet ids)) m

/-- The loop of `mtlk_core_abilities_register`, with the sets that are registered already. -/
def coreLoop (env : Nat → Bool) (before : List (List UInt32)) (m : Abmgr) :
    List (List UInt32) → Option (Abmgr × Int)
  | [] => some (m, 0)
  | ids :: tabl =>
    (m.registerAbilitySet env ids).bind fun (m', res) =>
      if res = 0 then (m'.setAbilitySet true ids).bind (·.coreLoop env (before ++ [ids]) tabl)
      else (m'.coreAbilitiesUnregister before).map (·, res)

/-- `mtlk_core_abilities_register` -/
def coreAbilitiesRegister (env : Nat → Bool) (m : Abmgr) (tabl : List (List UInt32)) :
    Option (Abmgr × Int) :=
  m.coreLoop env [] tabl

/-- `mtlk_abmgr_create`, in whatever the memory held before -/
def create (env : Nat → Bool) (t : Table UInt32 Nat) : Option (Abmgr × Int) :=
  (registerAbility env ⟨t.init 32, fun _ => false, fun _ => false, 0⟩ abilityNone).bind
    fun (m, res) =>
      if res = 0 then (m.setAbilityState true abilityNone).map (·, 0) else some (m, res)

end Abmgr

/-- What a module asks the manager for. -/
inductive AbOp where
  | registerSet (ids : List UInt32)
  | unregisterSet (ids : List UInt32)
  | setSet (state : Bool) (ids : List UInt32)
  | coreRegister (tabl : List (List UInt32))
  | coreUnregister (tabl : List (List UInt32))

def Abmgr.op (env : Nat → Bool) (m : Abmgr) : AbOp → Option (Abmgr × Int)
  | .registerSet ids => m.registerAbilitySet env ids
  | .unregisterSet ids => (m.unregisterAbilitySet ids).map (·, 0)
  | .setSet state ids => (m.setAbilitySet state ids).map (·, 0)
  | .coreRegister tabl => m.coreAbilitiesRegister env tabl
  | .coreUnregister tabl => (m.coreAbilitiesUnregister tabl).map (·, 0)

/-- The abilities that are registered, and whether they are enabled, as `Front.abilities` has
them. -/
abbrev Abilities := UInt32 → Option Bool

/-- The abilities of a list are set to be so. -/
def Abilities.put (a : Abilities) (ids : List UInt32) (state : Option Bool) : Abilities :=
  fun id => if id ∈ ids then state else a id

/-- What is asked for is done as a whole; a registration may be refused. -/
def AbOp.apply (a : Abilities) (done : Bool) : AbOp → Abilities
  | .registerSet ids => if done then a.put ids (some false) else a
  | .unregisterSet ids => a.put ids none
  | .setSet state ids => a.put ids (some state)
  | .coreRegister tabl => if done then a.put tabl.flatten (some true) else a
  | .coreUnregister tabl => a.put tabl.flatten none

/-- What the modules keep to: an ability is registered by one of them, and disabled before it is
unregistered. -/
def AbOp.Legal (a : Abilities) : AbOp → Prop
  | .registerSet ids => ids.Nodup ∧ ∀ id ∈ ids, a id = none
  | .unregisterSet ids => ids.Nodup ∧ ∀ id ∈ ids, a id = some false
  | .setSet _ ids => ∀ id ∈ ids, a id ≠ none
  | .coreRegister tabl => tabl.flatten.Nodup ∧ ∀ id ∈ tabl.flatten, a id = none
  | .coreUnregister tabl => tabl.flatten.Nodup ∧ ∀ id ∈ tabl.flatten, a id ≠ none

/-- The records are those of the hash, each allocated, and tell of the abilities. -/
structure Abmgr.Holds (m : Abmgr) (lists : Nat → List Nat) (recs : UInt32 → Option Nat)
    (a : Abilities) : Prop where
  table : Represents abmgr m.table lists recs
  pos : 0 < m.table.nofBuckets
  states : ∀ id, a id = (recs id).map m.enabled
  records : ∀ r, m.allocated r = true ↔ ∃ id, recs id = some r
  fresh : ∀ id r, recs id = some r → r < m.next

def Abmgr.Stands (m : Abmgr) (a : Abilities) : Prop := ∃ lists recs, m.Holds lists recs a

variable {env : Nat → Bool} {m : Abmgr} {a : Abilities} {lists : Nat → List Nat}
  {recs : UInt32 → Option Nat} {id : UInt32} {ids before : List UInt32} {state : Bool}

namespace Abmgr

theorem Holds.find (h : m.Holds lists recs a) (id : UInt32) :
    m.table.find abmgr id = some (recs id) := h.table.find_spec h.pos id

theorem Holds.record (h : m.Holds lists recs a) (id : UInt32) : m.record id = recs id := by
  unfold Abmgr.record
  rw [h.find]
  rfl

/-- A record is that of one ability. -/
theorem Holds.unique (h : m.Holds lists recs a) {id' : UInt32} {r : Nat} (here : recs id = some r)
    (there : recs id' = some r) : id' = id :=
  ((h.table.maps id' r).1 there).2.symm.trans ((h.table.maps id r).1 here).2

theorem Holds.registered (h : m.Holds lists recs a) (present : a id ≠ none) :
    ∃ r, recs id = some r ∧ a id = some (m.enabled r) := by
  have states := h.states id
  cases found : recs id with
  | none =>
    rw [found] at states
    exact absurd states present
  | some r => exact ⟨r, rfl, by rw [states, found, Option.map_some]⟩

theorem Holds.absent (h : m.Holds lists recs a) (absent : a id = none) : recs id = none := by
  rw [h.states, Option.map_eq_none_iff] at absent
  exact absent

/-- Where there is a record after one of them has changed. -/
theorem exists_update (recs : UInt32 → Option Nat) (id : UInt32) (x : Option Nat) (r : Nat) :
    (∃ k, Function.update recs id x k = some r) ↔ x = some r ∨ ∃ k, k ≠ id ∧ recs k = some r := by
  constructor
  · rintro ⟨k, found⟩
    by_cases here : k = id
    · subst here
      rw [Function.update_self] at found
      exact .inl found
    · rw [Function.update_of_ne here] at found
      exact .inr ⟨k, here, found⟩
  · rintro (same | ⟨k, other, found⟩)
    · exact ⟨id, by rw [Function.update_self]; exact same⟩
    · exact ⟨k, by rw [Function.update_of_ne other]; exact found⟩

/-- What `mtlk_abmgr_register_ability` leaves when there is memory. -/
def added (m : Abmgr) (id : UInt32) : Abmgr where
  table := m.table.link abmgr id m.next
  enabled := Function.update m.enabled m.next false
  allocated := Function.update m.allocated m.next true
  next := m.next + 1

theorem Holds.unused (h : m.Holds lists recs a) (k : UInt32) : recs k ≠ some m.next :=
  fun here => (h.fresh k _ here).false

theorem Holds.added (h : m.Holds lists recs a) (absent : recs id = none) :
    (m.added id).Stands (Function.update a id (some false)) := by
  refine ⟨_, _, h.table.link_spec h.pos absent h.unused, h.pos, fun k => ?_, fun r => ?_,
    fun k r found => ?_⟩
  · show _ = Option.map (Function.update m.enabled m.next false) _
    by_cases here : k = id
    · subst here
      simp
    · rw [Function.update_of_ne here, Function.update_of_ne here, h.states k]
      refine Option.map_congr fun r found => (Function.update_of_ne ?_ ..).symm
      rintro rfl
      exact h.unused k found
  · show Function.update m.allocated m.next true r = true ↔ _
    rw [exists_update]
    by_cases new : r = m.next
    · subst new
      exact iff_of_true (Function.update_self ..) (.inl rfl)
    · rw [Function.update_of_ne new, h.records]
      constructor
      · rintro ⟨k, found⟩
        refine .inr ⟨k, ?_, found⟩
        rintro rfl
        cases absent.symm.trans found
      · rintro (same | ⟨k, -, found⟩)
        · exact absurd (Option.some.inj same).symm new
        · exact ⟨k, found⟩
  · obtain new | ⟨k', -, old⟩ := (exists_update ..).1 ⟨k, found⟩
    · exact Option.some.inj new ▸ Nat.lt_succ_self _
    · exact Nat.lt_succ_of_lt (h.fresh k' r old)

/-- An ability is registered, disabled, or there is no memory for it. -/
theorem register_spec (env : Nat → Bool) (h : m.Stands a) (absent : a id = none) :
    ∃ m' res, m.registerAbility env id = some (m', res) ∧
      (res = 0 ∧ m'.Stands (Function.update a id (some false)) ∨ res ≠ 0 ∧ m'.Stands a) := by
  obtain ⟨lists, recs, h⟩ := h
  have none_here := h.absent absent
  unfold registerAbility
  by_cases allocates : env m.next = true
  · rw [if_pos allocates, Table.insert, h.find, none_here]
    exact ⟨_, _, rfl, .inl ⟨rfl, h.added none_here⟩⟩
  · rw [if_neg allocates]
    exact ⟨_, _, rfl, .inr ⟨by decide, lists, recs, h.table, h.pos, h.states, h.records,
      fun k r found => Nat.lt_succ_of_lt (h.fresh k r found)⟩⟩

theorem unregister_spec (h : m.Stands a) (disabled : a id = some false) :
    ∃ m', m.unregisterAbility id = some m' ∧ m'.Stands (Function.update a id none) := by
  obtain ⟨lists, recs, h⟩ := h
  have present : a id ≠ none := by simp [disabled]
  obtain ⟨r, found, state⟩ := h.registered present
  have off : m.enabled r = false := by
    rw [disabled, Option.some.injEq] at state
    exact state.symm
  unfold unregisterAbility
  rw [h.record, found, Option.bind_some, if_pos ⟨off, (h.records r).2 ⟨id, found⟩⟩]
  refine ⟨_, rfl, _, _, h.table.remove_spec h.pos found, h.pos, fun k => ?_, fun r' => ?_,
    fun k r' there => ?_⟩
  · by_cases here : k = id
    · subst here
      simp
    · rw [Function.update_of_ne here, Function.update_of_ne here]
      exact h.states k
  · show Function.update m.allocated r false r' = true ↔ _
    rw [exists_update]
    by_cases gone : r' = r
    · subst gone
      rw [Function.update_self]
      refine iff_of_false (by simp) ?_
      rintro (no | ⟨k, other, there⟩)
      · cases no
      · exact other (h.unique found there)
    · rw [Function.update_of_ne gone, h.records]
      constructor
      · rintro ⟨k, there⟩
        refine .inr ⟨k, ?_, there⟩
        rintro rfl
        exact gone (Option.some.inj (there.symm.trans found))
      · rintro (no | ⟨k, -, there⟩)
        · cases no
        · exact ⟨k, there⟩
  · obtain no | ⟨k', -, old⟩ := (exists_update ..).1 ⟨k, there⟩
    · cases no
    · exact h.fresh k' r' old

theorem setState_spec (state : Bool) (h : m.Stands a) (present : a id ≠ none) :
    ∃ m', m.setAbilityState state id = some m' ∧ m'.Stands (Function.update a id (some state)) := by
  obtain ⟨lists, recs, h⟩ := h
  obtain ⟨r, found, -⟩ := h.registered present
  unfold setAbilityState
  rw [h.record, found, Option.map_some]
  refine ⟨_, rfl, lists, recs, h.table, h.pos, fun k => ?_, h.records, h.fresh⟩
  show _ = Option.map (Function.update m.enabled r state) _
  by_cases here : k = id
  · subst here
    simp [found]
  · rw [Function.update_of_ne here, h.states k]
    refine Option.map_congr fun r' there => (Function.update_of_ne ?_ ..).symm
    rintro rfl
    exact here (h.unique found there)

end Abmgr

namespace Abilities

theorem put_of_mem (a : Abilities) (s : Option Bool) (mem : id ∈ ids) : a.put ids s id = s :=
  if_pos mem

theorem put_of_notMem (a : Abilities) (s : Option Bool) (out : id ∉ ids) :
    a.put ids s id = a id := if_neg out

@[simp] theorem put_nil (a : Abilities) (s : Option Bool) : a.put [] s = a := by
  funext id
  simp [put]

theorem put_cons (a : Abilities) (id : UInt32) (ids : List UInt32) (s : Option Bool) :
    put (Function.update a id s) ids s = a.put (id :: ids) s := by
  funext k
  by_cases here : k = id
  · subst here
    simp [put]
  · simp [put, here]

theorem put_append (a : Abilities) (ids ids' : List UInt32) (s : Option Bool) :
    (a.put ids s).put ids' s = a.put (ids ++ ids') s := by
  funext k
  by_cases first : k ∈ ids <;> by_cases second : k ∈ ids' <;> simp [put, first, second]

/-- The last of two settings counts. -/
theorem put_put (a : Abilities) (ids : List UInt32) (s s' : Option Bool) :
    (a.put ids s).put ids s' = a.put ids s' := by
  funext k
  by_cases mem : k ∈ ids <;> simp [put, mem]

theorem put_self {s : Option Bool} (same : ∀ id ∈ ids, a id = s) : a.put ids s = a := by
  funext k
  by_cases mem : k ∈ ids
  · rw [put_of_mem a s mem, same k mem]
  · exact put_of_notMem a s mem

end Abilities

namespace Abmgr

theorem unregisterSet_spec (h : m.Stands a) (nodup : ids.Nodup)
    (disabled : ∀ id ∈ ids, a id = some false) :
    ∃ m', m.unregisterAbilitySet ids = some m' ∧ m'.Stands (a.put ids none) := by
  induction ids generalizing m a with
  | nil => exact ⟨m, rfl, by simpa using h⟩
  | cons id ids ih =>
    obtain ⟨fresh, nodup⟩ := List.nodup_cons.1 nodup
    obtain ⟨m₁, first, h₁⟩ := unregister_spec h (disabled id List.mem_cons_self)
    have others : ∀ k ∈ ids, Function.update a id none k = some false := by
      intro k mem
      have ne : k ≠ id := fun same => fresh (same ▸ mem)
      rw [Function.update_of_ne ne]
      exact disabled k (List.mem_cons_of_mem _ mem)
    obtain ⟨m₂, rest, h₂⟩ := ih h₁ nodup others
    rw [Abilities.put_cons] at h₂
    refine ⟨m₂, ?_, h₂⟩
    unfold unregisterAbilitySet at rest ⊢
    rw [List.foldlM_cons, first]
    exact rest

theorem setSet_spec (state : Bool) (h : m.Stands a) (present : ∀ id ∈ ids, a id ≠ none) :
    ∃ m', m.setAbilitySet state ids = some m' ∧ m'.Stands (a.put ids (some state)) := by
  induction ids generalizing m a with
  | nil => exact ⟨m, rfl, by simpa using h⟩
  | cons id ids ih =>
    obtain ⟨m₁, first, h₁⟩ := setState_spec state h (present id List.mem_cons_self)
    have others : ∀ k ∈ ids, Function.update a id (some state) k ≠ none := by
      intro k mem
      by_cases here : k = id
      · subst here
        simp
      · rw [Function.update_of_ne here]
        exact present k (List.mem_cons_of_mem _ mem)
    obtain ⟨m₂, rest, h₂⟩ := ih h₁ others
    rw [Abilities.put_cons] at h₂
    refine ⟨m₂, ?_, h₂⟩
    unfold setAbilitySet at rest ⊢
    rw [List.foldlM_cons, first]
    exact rest

/-- A set is registered as a whole, or nothing of it is left. -/
theorem registerLoop_spec (env : Nat → Bool) (h : m.Stands (a.put before (some false)))
    (nodup : (before ++ ids).Nodup) (absent : ∀ id ∈ before ++ ids, a id = none) :
    ∃ m' res, m.registerLoop env before ids = some (m', res) ∧
      (res = 0 ∧ m'.Stands (a.put (before ++ ids) (some false)) ∨ res ≠ 0 ∧ m'.Stands a) := by
  induction ids generalizing m before with
  | nil => exact ⟨m, 0, rfl, .inl ⟨rfl, by rwa [List.append_nil]⟩⟩
  | cons id ids ih =>
    have fresh : id ∉ before := fun mem =>
      List.disjoint_of_nodup_append nodup mem List.mem_cons_self
    have here : (a.put before (some false)) id = none :=
      (Abilities.put_of_notMem a _ fresh).trans (absent id (by simp))
    obtain ⟨m₁, res, first, ⟨zero, h₁⟩ | ⟨nonzero, h₁⟩⟩ := register_spec env h here
    · have more : m₁.Stands (a.put (before ++ [id]) (some false)) := by
        rw [← Abilities.put_append, ← Abilities.put_cons, Abilities.put_nil]
        exact h₁
      obtain ⟨m₂, res', rest, result⟩ := ih more (by simpa using nodup) (by simpa using absent)
      refine ⟨m₂, res', ?_, by simpa using result⟩
      rw [registerLoop, first]
      exact (if_pos zero).trans rest
    · have disabled : ∀ k ∈ before, (a.put before (some false)) k = some false :=
        fun k mem => Abilities.put_of_mem a _ mem
      obtain ⟨m₂, back, h₂⟩ := unregisterSet_spec h₁ (List.Nodup.of_append_left nodup) disabled
      rw [Abilities.put_put, Abilities.put_self fun k mem => absent k (by simp [mem])] at h₂
      refine ⟨m₂, res, ?_, .inr ⟨nonzero, h₂⟩⟩
      rw [registerLoop, first]
      refine (if_neg nonzero).trans ?_
      rw [back]
      rfl

theorem registerSet_spec (env : Nat → Bool) (h : m.Stands a) (nodup : ids.Nodup)
    (absent : ∀ id ∈ ids, a id = none) :
    ∃ m' res, m.registerAbilitySet env ids = some (m', res) ∧
      (res = 0 ∧ m'.Stands (a.put ids (some false)) ∨ res ≠ 0 ∧ m'.Stands a) := by
  have start : m.Stands (a.put [] (some false)) := by simpa using h
  exact registerLoop_spec env start nodup absent

variable {tabl before : List (List UInt32)}

theorem coreUnregister_spec (h : m.Stands a) (nodup : tabl.flatten.Nodup)
    (present : ∀ id ∈ tabl.flatten, a id ≠ none) :
    ∃ m', m.coreAbilitiesUnregister tabl = some m' ∧ m'.Stands (a.put tabl.flatten none) := by
  induction tabl generalizing m a with
  | nil => exact ⟨m, rfl, by simpa using h⟩
  | cons ids tabl ih =>
    rw [List.flatten_cons] at nodup present ⊢
    obtain ⟨m₁, off, h₁⟩ := setSet_spec false h
      fun id mem => present id (List.mem_append_left _ mem)
    obtain ⟨m₂, gone, h₂⟩ := unregisterSet_spec h₁ (List.Nodup.of_append_left nodup)
      fun id mem => Abilities.put_of_mem a _ mem
    rw [Abilities.put_put] at h₂
    have others : ∀ id ∈ tabl.flatten, (a.put ids none) id ≠ none := by
      intro id mem
      have out : id ∉ ids := fun here => List.disjoint_of_nodup_append nodup here mem
      rw [Abilities.put_of_notMem a _ out]
      exact present id (List.mem_append_right _ mem)
    obtain ⟨m₃, rest, h₃⟩ := ih h₂ (List.Nodup.of_append_right nodup) others
    rw [Abilities.put_append] at h₃
    refine ⟨m₃, ?_, h₃⟩
    unfold coreAbilitiesUnregister at rest ⊢
    rw [List.foldlM_cons, off, Option.bind_some, gone]
    exact rest

/-- All sets of a table are registered and enabled, or nothing of them is left. -/
theorem coreLoop_spec (env : Nat → Bool) (h : m.Stands (a.put before.flatten (some true)))
    (nodup : (before ++ tabl).flatten.Nodup)
    (absent : ∀ id ∈ (before ++ tabl).flatten, a id = none) :
    ∃ m' res, m.coreLoop env before tabl = some (m', res) ∧
      (res = 0 ∧ m'.Stands (a.put (before ++ tabl).flatten (some true)) ∨
        res ≠ 0 ∧ m'.Stands a) := by
  induction tabl generalizing m before with
  | nil => exact ⟨m, 0, rfl, .inl ⟨rfl, by rwa [List.append_nil]⟩⟩
  | cons ids tabl ih =>
    have split : (before ++ ids :: tabl).flatten = before.flatten ++ (ids ++ tabl.flatten) := by
      simp
    rw [split] at nodup absent
    have fresh : ∀ id ∈ ids, id ∉ before.flatten := fun id mem there =>
      List.disjoint_of_nodup_append nodup there (List.mem_append_left _ mem)
    have new : ∀ id ∈ ids, (a.put before.flatten (some true)) id = none := by
      intro id mem
      rw [Abilities.put_of_notMem a _ (fresh id mem)]
      exact absent id (by simp [mem])
    have nodup_ids := List.Nodup.of_append_left (List.Nodup.of_append_right nodup)
    obtain ⟨m₁, res, first, ⟨zero, h₁⟩ | ⟨nonzero, h₁⟩⟩ :=
      registerSet_spec env h nodup_ids new
    · have present : ∀ id ∈ ids,
          (a.put before.flatten (some true)).put ids (some false) id ≠ none := by
        intro id mem
        rw [Abilities.put_of_mem _ _ mem]
        exact Option.some_ne_none false
      obtain ⟨m₂, on, h₂⟩ := setSet_spec true h₁ present
      have more : m₂.Stands (a.put (before ++ [ids]).flatten (some true)) := by
        rw [List.flatten_append, List.flatten_singleton, ← Abilities.put_append]
        rwa [Abilities.put_put] at h₂
      obtain ⟨m₃, res', rest, result⟩ := ih more (by simpa using nodup) (by simpa using absent)
      refine ⟨m₃, res', ?_, by simpa using result⟩
      rw [coreLoop, first]
      refine (if_pos zero).trans ?_
      rw [on]
      exact rest
    · obtain ⟨m₂, back, h₂⟩ := coreUnregister_spec h₁ (List.Nodup.of_append_left nodup)
        fun id mem => by simp [Abilities.put_of_mem a _ mem]
      rw [Abilities.put_put, Abilities.put_self fun k mem =>
        absent k (List.mem_append_left _ mem)] at h₂
      refine ⟨m₂, res, ?_, .inr ⟨nonzero, h₂⟩⟩
      rw [coreLoop, first]
      refine (if_neg nonzero).trans ?_
      rw [back]
      rfl

theorem op_spec (env : Nat → Bool) (h : m.Stands a) {op : AbOp} (legal : op.Legal a) :
    ∃ m' res, m.op env op = some (m', res) ∧ m'.Stands (op.apply a (res = 0)) := by
  cases op with
  | registerSet ids =>
    obtain ⟨m', res, done, ⟨zero, h'⟩ | ⟨nonzero, h'⟩⟩ := registerSet_spec env h legal.1 legal.2
    · exact ⟨m', res, done, by simpa [AbOp.apply, zero] using h'⟩
    · exact ⟨m', res, done, by simpa [AbOp.apply, nonzero] using h'⟩
  | unregisterSet ids =>
    obtain ⟨m', done, h'⟩ := unregisterSet_spec h legal.1 legal.2
    exact ⟨m', 0, by rw [op, done]; rfl, h'⟩
  | setSet state ids =>
    obtain ⟨m', done, h'⟩ := setSet_spec state h legal
    exact ⟨m', 0, by rw [op, done]; rfl, h'⟩
  | coreRegister tabl =>
    have start : m.Stands (a.put [].flatten (some true)) := by simpa using h
    obtain ⟨m', res, done, ⟨zero, h'⟩ | ⟨nonzero, h'⟩⟩ :=
      coreLoop_spec env start legal.1 legal.2
    · exact ⟨m', res, done, by simpa [AbOp.apply, zero] using h'⟩
    · exact ⟨m', res, done, by simpa [AbOp.apply, nonzero] using h'⟩
  | coreUnregister tabl =>
    obtain ⟨m', done, h'⟩ := coreUnregister_spec h legal.1 legal.2
    exact ⟨m', 0, by rw [op, done]; rfl, h'⟩

/-- A manager that was created has `MTLK_ABILITY_NONE` alone, which is enabled. -/
theorem create_spec {t : Table UInt32 Nat} (created : create env t = some (m, 0)) :
    m.Stands (Function.update (fun _ => none) abilityNone (some true)) := by
  have empty : Stands ⟨t.init 32, fun _ => false, fun _ => false, 0⟩ fun _ => none :=
    ⟨_, _, represents_init abmgr t 32, Nat.zero_lt_succ 31, fun _ => rfl, fun _ => by simp,
      fun _ _ no => by cases no⟩
  obtain ⟨m₁, res, first, ⟨zero, h₁⟩ | ⟨nonzero, -⟩⟩ :=
    register_spec env empty (show (fun _ => none : Abilities) abilityNone = none from rfl)
  · have present : Function.update (fun _ => none) abilityNone (some false) abilityNone ≠ none := by
      simp
    obtain ⟨m₂, on, h₂⟩ := setState_spec true h₁ present
    rw [create, first] at created
    have same := (if_pos zero).symm.trans created
    rw [on] at same
    cases same
    rwa [Function.update_idem] at h₂
  · rw [create, first] at created
    have same := (if_neg nonzero).symm.trans created
    cases same
    exact absurd rfl nonzero

end Abmgr

/-- What the modules ask for, one after another, with the abilities as they should be. -/
def abilityStep (env : Nat → Bool) (s : Option Abmgr × Abilities) (op : AbOp) :
    Option Abmgr × Abilities :=
  match s.1.bind fun m => m.op env op with
  | some (m, res) => (some m, op.apply s.2 (res = 0))
  | none => (none, s.2)

/-- The fourth record is not allocated. -/
def fourthFails : Nat → Bool := fun n => n ≠ 3

/-- The third ability of a set has no memory; two before it have the same hash. -/
def someOps : List AbOp := [.registerSet [1, 33, 2]]

def someMemory : Table UInt32 Nat where
  nofBuckets := 0
  links := ⟨fun _ => .poison, fun _ => .poison⟩
  depth _ := 0
  key _ := 0
  hashIdx _ := 0

/-- Whatever the modules ask for, in any order, and whatever is allocated: no assertion fails, what
is registered and enabled is what was asked for, where a set or a table of sets that is refused has
left nothing behind, and the records that are allocated are those in the hash. -/
theorem abilities_as_a_whole {m₀ : Abmgr} {t : Table UInt32 Nat} {s : Option Abmgr × Abilities}
    (created : Abmgr.create env t = some (m₀, 0))
    (run : Runs (abilityStep env) (fun s op => op.Legal s.2)
      (some m₀, Function.update (fun _ => none) abilityNone (some true)) s) :
    ∃ m, s.1 = some m ∧
      (∀ id, m.isAbilityRegistered id = some (s.2 id).isSome ∧
        m.isAbilityEnabled id = some (s.2 id == some true)) ∧
      ∀ r, m.allocated r = true ↔ ∃ id, m.table.find abmgr id = some (some r) := by
  have kept : ∃ m, s.1 = some m ∧ m.Stands s.2 := by
    refine run.invariant (P := fun s => ∃ m, s.1 = some m ∧ m.Stands s.2)
      ⟨m₀, rfl, Abmgr.create_spec created⟩ ?_
    rintro ⟨_, a⟩ op ⟨m, rfl, h⟩ legal
    obtain ⟨m', res, done, h'⟩ := Abmgr.op_spec env h legal
    unfold abilityStep
    dsimp only at done ⊢
    rw [Option.bind_some, done]
    exact ⟨m', rfl, h'⟩
  obtain ⟨m, is, lists, recs, h⟩ := kept
  refine ⟨m, is, fun id => ?_, fun r => ?_⟩
  · unfold Abmgr.isAbilityRegistered Abmgr.isAbilityEnabled
    rw [h.find, h.states id]
    cases recs id <;> simp
  · rw [h.records]
    exact exists_congr fun id => by rw [h.find, Option.some.injEq]

theorem abilities_as_a_whole_refused :
    ∃ m₀ m, Abmgr.create fourthFails someMemory = some (m₀, 0) ∧
      (someOps.foldl (abilityStep fourthFails)
        (some m₀, Function.update (fun _ => none) abilityNone (some true))).1 = some m ∧
      m.isAbilityRegistered 33 = some false ∧ m.isAbilityEnabled abilityNone = some true := by
  have created : Abmgr.create fourthFails someMemory = some (_, 0) := rfl
  have absent : ∀ id ∈ [1, 33, 2],
      Function.update (fun _ => none) abilityNone (some true) id = none := by
    intro id mem
    refine Function.update_of_ne ?_ ..
    rintro rfl
    exact absurd mem (by decide)
  obtain ⟨m, is, tells, records⟩ := abilities_as_a_whole created
    (.of_allowed (l := someOps) ⟨⟨by decide, absent⟩, trivial⟩)
  exact ⟨_, m, created, is, (tells 33).1.trans rfl, (tells abilityNone).2.trans rfl⟩

end Wave300.Requests
