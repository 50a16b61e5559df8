import Wave300.Lib.Slots
import Wave300.Lib.Trace
import Wave300.Sq.Queue

/-!
# Accounting of the send queue

`size` is counted up and down in several places: for each packet, and once for each group of
clones. What the lists and the blocks do not show at a moment is held by the code that runs: a
place in `size`, a reference to a block, a packet. Each operation takes some of these and gives
others, and the counters always agree with the lists, the blocks and what is held.
-/

namespace Wave300.Sq

open Wave300.Lib

/-- What a call, or the code under the lock, can hold. -/
inductive Token where
  /-- A place in the size of a category. -/
  | size (ac : Ac)
  /-- A reference to a block. -/
  | ref (g : Nat)
  /-- A group whose block is gone and whose place in `size` is not given back. -/
  | group (g : Nat)
  /-- A packet that the queue has not seen yet. -/
  | pending (id : Nat)
  /-- A packet that was accepted. -/
  | packet (id : Nat)
  deriving DecidableEq

variable {σ ν : Type}

def Call.tokens : Call σ ν → Multiset Token
  | .enqueue _ pkt ac _ => {.size ac, .pending pkt.id}
  | .refused ac => {.size ac}
  | .cloning _ _ g => {.ref g}
  | .enqueueClone _ _ g clone => {.ref g, .ref g, .pending clone.id}
  | .cloneRefused _ _ g => {.ref g, .ref g}
  | .uncount ac g => {.size ac, .group g}

/-- What a packet in a list stands for: its reference, or its own place in `size`. -/
def Pkt.token (ac : Ac) (pkt : Pkt σ ν) : Token :=
  match pkt.rmcast with
  | some g => .ref g
  | none => .size ac

namespace Queue

/-- How many packets in the lists are like this. -/
def inLists (s : Queue σ ν) (P : Pkt σ ν → Bool) : Nat := ∑ ac, (s.queued ac).countP P

/-- How many groups of a category have a reference. -/
def liveGroups (s : Queue σ ν) (ac : Ac) : Nat :=
  (contents s.extra s.extras).countP fun e => e.ac = ac ∧ 0 < e.refCnt

/-- How many packets of a category that are not clones are in the lists. -/
def plain (s : Queue σ ν) (ac : Ac) : Nat := (s.queued ac).countP (·.rmcast.isNone)

def refCnt (s : Queue σ ν) (g : Nat) : Int := ((s.extra g).map Extra.refCnt).getD 0

/-- How many of each must be held, for the counters to agree with the lists and the blocks. -/
def balance (s : Queue σ ν) : Token → Int
  | .size ac => s.size ac - s.plain ac - s.liveGroups ac
  | .ref g => s.refCnt g - s.inLists fun pkt => pkt.rmcast = some g
  | .group g => (if g < s.extras then 1 else 0) - s.released.count g - (s.extra g).isSome.toNat
  | .pending id => (if id < s.pkts then 1 else 0) - s.accepted.count id - s.outside.count id
  | .packet id => s.accepted.count id - (s.inLists fun pkt => pkt.id = id) -
      (s.inHw.map (·.pkt.id)).count id - s.confirmed.count id - s.dropped.count id

/-- An operation takes some of what is held and gives others for it. -/
def Trades (s s' : Queue σ ν) (taken given : Multiset Token) : Prop :=
  ∀ t, s'.balance t + taken.count t = s.balance t + given.count t

variable {s s' s'' : Queue σ ν} {held taken between given : Multiset Token} {ac : Ac} {g : Nat}
  {pkt : Pkt σ ν}

theorem Trades.trans (h : s.Trades s' taken between) (h' : s'.Trades s'' between given) :
    s.Trades s'' taken given := by
  intro t
  have first := h t
  have second := h' t
  omega

theorem Trades.symm (h : s.Trades s' taken given) : s'.Trades s given taken := by
  intro t
  exact (h t).symm

theorem Trades.frame (h : s.Trades s' taken given) (held : Multiset Token) :
    s.Trades s' (taken + held) (given + held) := by
  intro t
  have same := h t
  rw [Multiset.count_add, Multiset.count_add]
  omega

theorem Trades.cancel (h : s.Trades s' (taken + held) (given + held)) :
    s.Trades s' taken given := by
  intro t
  have same := h t
  rw [Multiset.count_add, Multiset.count_add] at same
  push_cast at same
  omega

theorem unchanged {t : Token} (same : s'.balance t = s.balance t) (kept : t ∉ taken)
    (new : t ∉ given) : s'.balance t + taken.count t = s.balance t + given.count t := by
  rw [same, Multiset.count_eq_zero_of_notMem kept, Multiset.count_eq_zero_of_notMem new]

/-! ## What each operation trades -/

theorem trades_sizeInc (s : Queue σ ν) (ac : Ac) : s.Trades (s.sizeInc ac) 0 {.size ac} := by
  intro t
  cases t with
  | size ac' =>
    have place : (s.sizeInc ac).size ac' = s.size ac' + if ac' = ac then 1 else 0 := by
      by_cases same : ac' = ac
      · subst same
        simp [sizeInc]
      · simp [sizeInc, same]
    change (s.sizeInc ac).size ac' - s.plain ac' - s.liveGroups ac' + _ = s.balance (.size ac') + _
    rw [place, balance, Multiset.count_singleton]
    simp only [Token.size.injEq, Multiset.count_zero]
    split <;> omega
  | ref | group | pending | packet => exact unchanged rfl (by simp) (by simp)

theorem trades_sizeDec (s : Queue σ ν) (ac : Ac) : s.Trades (s.sizeDec ac) {.size ac} 0 := by
  intro t
  cases t with
  | size ac' =>
    have place : (s.sizeDec ac).size ac' = s.size ac' - if ac' = ac then 1 else 0 := by
      by_cases same : ac' = ac
      · subst same
        simp [sizeDec]
      · simp [sizeDec, same]
    change (s.sizeDec ac).size ac' - s.plain ac' - s.liveGroups ac' + _ = s.balance (.size ac') + _
    rw [place, balance, Multiset.count_singleton]
    simp only [Token.size.injEq, Multiset.count_zero]
    split <;> omega
  | ref | group | pending | packet => exact unchanged rfl (by simp) (by simp)

theorem trades_allocPkt (s : Queue σ ν) : s.Trades s.allocPkt 0 {.pending s.pkts} := by
  intro t
  cases t with
  | pending id =>
    change
      (if id < s.pkts + 1 then 1 else 0) - (s.accepted.count id : Int) - s.outside.count id + _ =
      (if id < s.pkts then 1 else 0) - (s.accepted.count id : Int) - s.outside.count id + _
    rw [Multiset.count_singleton, Multiset.count_zero]
    simp only [Token.pending.injEq]
    split <;> split <;> split <;> omega
  | ref | group | size | packet => exact unchanged rfl (by simp) (by simp)

theorem trades_leaveOut (s : Queue σ ν) (pkt : Pkt σ ν) :
    s.Trades (s.leaveOut pkt) {.pending pkt.id} 0 := by
  intro t
  cases t with
  | pending id =>
    simp only [balance, leaveOut, Multiset.count_singleton, Multiset.count_cons,
      Multiset.count_zero, Token.pending.injEq]
    split <;> push_cast <;> omega
  | ref | group | size | packet => exact unchanged rfl (by simp) (by simp)

theorem trades_accept (s : Queue σ ν) (pkt : Pkt σ ν) :
    s.Trades (s.accept pkt) {.pending pkt.id} {.packet pkt.id} := by
  intro t
  cases t with
  | pending id =>
    simp only [balance, accept, Multiset.count_singleton, Multiset.count_cons,
      Token.pending.injEq, reduceCtorEq, ↓reduceIte]
    split <;> push_cast <;> omega
  | packet id =>
    have same : (s.accept pkt).inLists (fun pkt => pkt.id = id) =
      s.inLists (fun pkt => pkt.id = id) := rfl
    rw [balance, balance, same]
    simp only [accept, Multiset.count_singleton, Multiset.count_cons,
      Token.packet.injEq, reduceCtorEq, ↓reduceIte]
    split <;> push_cast <;> omega
  | ref | group | size => exact unchanged rfl (by simp) (by simp)

theorem trades_free (s : Queue σ ν) (pkt : Pkt σ ν) :
    s.Trades (s.free pkt) {.packet pkt.id} 0 := by
  intro t
  cases t with
  | packet id =>
    have same : (s.free pkt).inLists (fun pkt => pkt.id = id) =
      s.inLists (fun pkt => pkt.id = id) := rfl
    rw [balance, balance, same]
    simp only [free, Multiset.count_singleton, Multiset.count_cons,
      Multiset.count_zero, Token.packet.injEq]
    split <;> push_cast <;> omega
  | ref | group | size | pending => exact unchanged rfl (by simp) (by simp)

theorem trades_handOver [DecidableEq σ] [DecidableEq ν] (s : Queue σ ν) (p : Ctx σ ν) (ac : Ac)
    (pkt : Pkt σ ν) : s.Trades (s.handOver p ac pkt) {.packet pkt.id} 0 := by
  intro t
  cases t with
  | packet id =>
    have same : (s.handOver p ac pkt).inLists (fun pkt => pkt.id = id) =
      s.inLists (fun pkt => pkt.id = id) := rfl
    rw [balance, balance, same]
    simp only [handOver, setTx, Multiset.map_cons, Multiset.count_singleton, Multiset.count_cons,
      Multiset.count_zero, Token.packet.injEq]
    split <;> push_cast <;> omega
  | ref | group | size | pending => exact unchanged rfl (by simp) (by simp)

/-- The packet passes from the hardware to those that were confirmed. -/
theorem trades_confirm [DecidableEq σ] [DecidableEq ν] {x : Handed σ ν} (mem : x ∈ s.inHw)
    (tx : Ctx σ ν → PeerTx) :
    s.Trades
      { s with tx := tx, inHw := s.inHw.erase x, confirmed := x.pkt.id ::ₘ s.confirmed } 0 0 := by
  intro t
  cases t with
  | packet id =>
    change (s.accepted.count id : Int) - (s.inLists fun pkt => pkt.id = id) -
        ((s.inHw.erase x).map (·.pkt.id)).count id - (x.pkt.id ::ₘ s.confirmed).count id -
        s.dropped.count id + _ = s.balance (.packet id) + _
    have back := congrArg (fun m => (m.map (·.pkt.id)).count id) (Multiset.cons_erase mem)
    simp only [Multiset.map_cons, Multiset.count_cons] at back
    rw [balance, ← back, Multiset.count_cons]
    push_cast
    omega
  | ref | group | size | pending => exact unchanged rfl (by simp) (by simp)

/-! ### The blocks -/

theorem trades_giveBack (s : Queue σ ν) (ac : Ac) (g : Nat) :
    s.Trades (s.giveBack ac g) {.size ac, .group g} 0 := by
  intro t
  cases t with
  | size ac' =>
    have dec := trades_sizeDec s ac (.size ac')
    have other : Token.size ac' ∉ ({.group g} : Multiset Token) := by simp
    rw [Multiset.insert_eq_cons, ← Multiset.singleton_add, Multiset.count_add,
      Multiset.count_eq_zero_of_notMem other]
    exact dec
  | group g' =>
    simp only [balance, giveBack, sizeDec, Multiset.insert_eq_cons, Multiset.count_cons,
      Multiset.count_singleton, Multiset.count_zero, Token.group.injEq, reduceCtorEq, ↓reduceIte]
    split <;> push_cast <;> omega
  | ref | packet | pending => exact unchanged rfl (by simp) (by simp)

theorem refCnt_setExtra (s : Queue σ ν) (g g' : Nat) (e : Option Extra) :
    (s.setExtra g e).refCnt g' = if g' = g then (e.map Extra.refCnt).getD 0 else s.refCnt g' := by
  by_cases same : g' = g
  · subst same
    simp [refCnt, setExtra]
  · simp [refCnt, setExtra, same]

/-- A reference more or less on a block that stays. -/
theorem trades_setExtra {e : Extra} (found : s.extra g = some e) (lt : g < s.extras)
    (live : 0 < e.refCnt) {n : Int} (pos : 0 < n) {taken given : Nat}
    (refs : n + taken = e.refCnt + given) :
    s.Trades (s.setExtra g (some { e with refCnt := n }))
      (Multiset.replicate taken (.ref g)) (Multiset.replicate given (.ref g)) := by
  intro t
  cases t with
  | size ac =>
    obtain ⟨rest, before, after⟩ := contents_replace lt found { e with refCnt := n }
    have groups : (s.setExtra g (some { e with refCnt := n })).liveGroups ac =
        s.liveGroups ac := by
      rw [liveGroups, liveGroups, before]
      change Multiset.countP _ (contents (Function.update s.extra g _) s.extras) = _
      rw [after, Multiset.countP_cons, Multiset.countP_cons]
      simp [live, pos]
    apply unchanged
    · change s.size ac - s.plain ac - _ = s.size ac - s.plain ac - _
      rw [groups]
    · simp [Multiset.mem_replicate]
    · simp [Multiset.mem_replicate]
  | ref g' =>
    change (s.setExtra g _).refCnt g' - s.inLists _ + _ = s.refCnt g' - s.inLists _ + _
    rw [refCnt_setExtra, Multiset.count_replicate, Multiset.count_replicate]
    by_cases same : g' = g
    · subst same
      simp only [refCnt, found, ↓reduceIte, Option.map_some, Option.getD_some]
      omega
    · have other : ¬ Token.ref g = .ref g' := by simpa using Ne.symm same
      simp only [same, other, ↓reduceIte]
  | group g' =>
    have stays : ((s.setExtra g (some { e with refCnt := n })).extra g').isSome =
        (s.extra g').isSome := by
      by_cases same : g' = g
      · subst same
        simp [setExtra, found]
      · simp [setExtra, same]
    apply unchanged
    · rw [balance, balance, stays]
      rfl
    · simp [Multiset.mem_replicate]
    · simp [Multiset.mem_replicate]
  | packet | pending =>
    apply unchanged rfl
    · simp [Multiset.mem_replicate]
    · simp [Multiset.mem_replicate]

/-- The last reference. -/
theorem trades_setExtra_none {e : Extra} (found : s.extra g = some e) (lt : g < s.extras)
    (one : e.refCnt = 1) :
    s.Trades (s.setExtra g none) {.ref g} {.size e.ac, .group g} := by
  intro t
  cases t with
  | size ac =>
    have before := contents_clear lt found
    have groups : s.liveGroups ac =
        (s.setExtra g none).liveGroups ac + if e.ac = ac then 1 else 0 := by
      rw [liveGroups, before, Multiset.countP_cons, one]
      simp [liveGroups, setExtra]
    change s.size ac - s.plain ac - ((s.setExtra g none).liveGroups ac : Int) + _ =
      s.size ac - s.plain ac - (s.liveGroups ac : Int) + _
    rw [groups]
    simp only [Multiset.insert_eq_cons, Multiset.count_cons, Multiset.count_singleton,
      Token.size.injEq, reduceCtorEq, ↓reduceIte, eq_comm (a := ac)]
    push_cast
    omega
  | ref g' =>
    change (s.setExtra g none).refCnt g' - s.inLists _ + _ = s.refCnt g' - s.inLists _ + _
    rw [refCnt_setExtra]
    by_cases same : g' = g
    · subst same
      simp [refCnt, found, one]
      omega
    · simp [same]
  | group g' =>
    change (if g' < s.extras then 1 else 0) - (s.released.count g' : Int) -
        ((s.setExtra g none).extra g').isSome.toNat + _ =
      (if g' < s.extras then 1 else 0) - (s.released.count g' : Int) -
        (s.extra g').isSome.toNat + _
    by_cases same : g' = g
    · subst same
      simp [setExtra, found]
    · simp [setExtra, same]
  | packet | pending => exact unchanged rfl (by simp) (by simp)

theorem trades_extraCreate (s : Queue σ ν) (ac : Ac) (front : Bool)
    (fresh : s.extra s.extras = none) :
    s.Trades (s.extraCreate ac front) {.size ac} {.ref s.extras} := by
  intro t
  cases t with
  | size ac' =>
    have groups : (s.extraCreate ac front).liveGroups ac' =
        s.liveGroups ac' + if ac = ac' then 1 else 0 := by
      change Multiset.countP _ (contents (Function.update s.extra s.extras _) (s.extras + 1)) = _
      rw [contents_push, Multiset.countP_cons]
      simp [liveGroups]
    change s.size ac' - s.plain ac' - ((s.extraCreate ac front).liveGroups ac' : Int) + _ =
      s.size ac' - s.plain ac' - (s.liveGroups ac' : Int) + _
    rw [groups]
    simp only [Multiset.count_singleton, Token.size.injEq, reduceCtorEq, ↓reduceIte,
      eq_comm (a := ac)]
    push_cast
    omega
  | ref g' =>
    change (((s.extraCreate ac front).extra g').map Extra.refCnt).getD 0 - s.inLists _ + _ =
      s.refCnt g' - s.inLists _ + _
    by_cases same : g' = s.extras
    · subst same
      simp [extraCreate, refCnt, fresh]
      omega
    · simp [extraCreate, refCnt, same]
  | group g' =>
    change (if g' < s.extras + 1 then 1 else 0) - (s.released.count g' : Int) -
        ((s.extraCreate ac front).extra g').isSome.toNat + _ =
      (if g' < s.extras then 1 else 0) - (s.released.count g' : Int) -
        (s.extra g').isSome.toNat + _
    by_cases same : g' = s.extras
    · subst same
      simp [extraCreate, fresh]
    · have lt : g' < s.extras + 1 ↔ g' < s.extras := by omega
      simp [extraCreate, same, lt]
  | packet | pending => exact unchanged rfl (by simp) (by simp)

/-! ### The lists -/

section Lists
variable [DecidableEq σ] [DecidableEq ν] {p : Ctx σ ν} {l : List (Pkt σ ν)}

theorem queued_setBuflist_of_ne (s : Queue σ ν) (p : Ctx σ ν) (l : List (Pkt σ ν)) {ac' : Ac}
    (ne : ac' ≠ ac) : (s.setBuflist p ac l).queued ac' = s.queued ac' := by
  have same : (fun q => (s.setBuflist p ac l).buflist q ac') = fun q => s.buflist q ac' := by
    funext q
    by_cases eq : q = p
    · subst eq
      simp [setBuflist, ne]
    · simp [setBuflist, eq]
  rw [queued, same]
  rfl

theorem countP_queued_setBuflist (nodup : (s.peers ac).Nodup) (mem : p ∈ s.peers ac)
    (l : List (Pkt σ ν)) (P : Pkt σ ν → Bool) :
    ((s.setBuflist p ac l).queued ac).countP P + (s.buflist p ac).countP P =
      (s.queued ac).countP P + l.countP P := by
  have one : (fun q => (s.setBuflist p ac l).buflist q ac) =
      Function.update (fun q => s.buflist q ac) p l := by
    funext q
    by_cases eq : q = p
    · subst eq
      simp [setBuflist]
    · simp [setBuflist, eq]
  rw [queued, one]
  exact countP_flatMap_update nodup mem _ l P

theorem inLists_setBuflist (nodup : (s.peers ac).Nodup) (mem : p ∈ s.peers ac)
    (l : List (Pkt σ ν)) (P : Pkt σ ν → Bool) :
    (s.setBuflist p ac l).inLists P + (s.buflist p ac).countP P = s.inLists P + l.countP P := by
  apply sum_add_eq_sum_add ac (countP_queued_setBuflist nodup mem l P)
  intro ac' ne
  rw [queued_setBuflist_of_ne s p l ne]

/-- Putting a packet in a list. -/
theorem trades_put (nodup : (s.peers ac).Nodup) (mem : p ∈ s.peers ac)
    (put : l.Perm (pkt :: s.buflist p ac)) :
    s.Trades (s.setBuflist p ac l) {pkt.token ac, .packet pkt.id} 0 := by
  have count : ∀ P, (s.setBuflist p ac l).inLists P = s.inLists P + if P pkt then 1 else 0 := by
    intro P
    have changed := inLists_setBuflist nodup mem l P
    rw [put.countP_eq, List.countP_cons] at changed
    omega
  intro t
  cases t with
  | size ac' =>
    have count : (s.setBuflist p ac l).plain ac' =
        s.plain ac' + if pkt.token ac = .size ac' then 1 else 0 := by
      by_cases same : ac' = ac
      · subst same
        have changed := countP_queued_setBuflist nodup mem l (·.rmcast.isNone)
        rw [put.countP_eq, List.countP_cons] at changed
        rw [plain, plain, Pkt.token]
        cases rmcast : pkt.rmcast with
        | none => simp [rmcast] at changed ⊢; omega
        | some g => simp [rmcast] at changed ⊢; omega
      · rw [plain, plain, queued_setBuflist_of_ne s p l same, Pkt.token]
        cases pkt.rmcast with
        | none => simp [Ne.symm same]
        | some g => simp
    change s.size ac' - ((s.setBuflist p ac l).plain ac' : Int) - s.liveGroups ac' + _ =
      s.size ac' - (s.plain ac' : Int) - s.liveGroups ac' + _
    rw [count]
    simp only [Multiset.insert_eq_cons, Multiset.count_cons, Multiset.count_singleton,
      Multiset.count_zero, reduceCtorEq, ↓reduceIte, eq_comm (a := Token.size ac')]
    push_cast
    omega
  | ref g =>
    have token : pkt.token ac = .ref g ↔ pkt.rmcast = some g := by
      rw [Pkt.token]
      cases pkt.rmcast <;> simp
    change s.refCnt g - ((s.setBuflist p ac l).inLists _ : Int) + _ =
      s.refCnt g - (s.inLists _ : Int) + _
    rw [count]
    simp only [Multiset.insert_eq_cons, Multiset.count_cons, Multiset.count_singleton,
      Multiset.count_zero, reduceCtorEq, ↓reduceIte, eq_comm (a := Token.ref g), token,
      decide_eq_true_eq]
    push_cast
    omega
  | packet id =>
    have token : ¬ pkt.token ac = .packet id := by
      rw [Pkt.token]
      cases pkt.rmcast <;> simp
    rw [balance, balance, count]
    simp only [setBuflist, Multiset.insert_eq_cons, Multiset.count_cons,
      Multiset.count_singleton, Multiset.count_zero, eq_comm (a := Token.packet id), token,
      Token.packet.injEq, ↓reduceIte, decide_eq_true_eq]
    push_cast
    omega
  | group | pending =>
    apply unchanged rfl
    · rw [Pkt.token]
      cases pkt.rmcast <;> simp
    · simp

/-- Taking a packet out of a list. -/
theorem trades_take (nodup : (s.peers ac).Nodup) (mem : p ∈ s.peers ac)
    (take : (s.buflist p ac).Perm (pkt :: l)) :
    s.Trades (s.setBuflist p ac l) 0 {pkt.token ac, .packet pkt.id} := by
  have back : (s.setBuflist p ac l).setBuflist p ac (s.buflist p ac) = s := by
    simp [setBuflist]
  have there : (s.setBuflist p ac l).buflist p ac = l := by
    simp [setBuflist]
  rw [← there] at take
  have put := trades_put (s := s.setBuflist p ac l) nodup mem take
  rw [back] at put
  exact put.symm

end Lists

end Queue

end Wave300.Sq
