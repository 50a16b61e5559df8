import Wave300.Hstdb.Hosts

/-!
# Multicast groups

`mcast.c`: a table of sixty-four buckets for each family of addresses. A bucket is a list of groups,
and a group has a list of the stations in it. The functions of the two families are the same but
for their addresses.
-/

namespace Wave300.Mcast

open Hstdb (Sta Addr)

/-- What the functions of a family of addresses differ by: where an address is hashed to, whether
it is of the link-local space, how many bytes it has and how it is read from memory. -/
structure Family (α : Type) where
  hash : α → Nat
  hash_lt : ∀ g, hash g < 64
  linkLocal : α → Bool
  addrSize : Nat
  read : (Nat → UInt8) → Nat → α

/-- `mcast_ip4_gr`, `mcast_ip6_gr` -/
structure Gr (α : Type) where
  addr : α
  mcsta : List Sta
  deriving DecidableEq

abbrev Table (α : Type) := Nat → List (Gr α)

section Calls
variable {α : Type} [DecidableEq α] (F : Family α) (t : Table α)

/-- `find_ip4_gr`, `find_ip6_gr` -/
def findGr (g : α) : Option (Gr α) :=
  (t (F.hash g)).find? fun gr => gr.addr = g

/-- A new group without stations in front of its bucket. -/
def pushGr (g : α) : Table α :=
  Function.update t (F.hash g) (⟨g, []⟩ :: t (F.hash g))

/-- The stations of a group of the table are written. -/
def setSta (g : α) (l : List Sta) : Table α :=
  Function.update t (F.hash g)
    ((t (F.hash g)).map fun gr => if gr.addr = g then { gr with mcsta := l } else gr)

/-- `del_ip4_gr`, `del_ip6_gr` -/
def delGr (g : α) : Table α :=
  Function.update t (F.hash g) ((t (F.hash g)).eraseP fun gr => gr.addr = g)

/-- `add_ip4_sta`, `add_ip6_sta`, of a station that is one. -/
def addSta (s : Sta) (g : α) : Table α :=
  if F.linkLocal g then t
  else
    let t' := if findGr F t g = none then pushGr F t g else t
    match findGr F t' g with
    | none => t'
    | some gr => if s ∈ gr.mcsta then t' else setSta F t' g (s :: gr.mcsta)

/-- `del_ip4_sta`, `del_ip6_sta`, of a station that is one. -/
def delSta (s : Sta) (g : α) : Table α :=
  match findGr F t g with
  | none => t
  | some gr =>
    if s ∈ gr.mcsta then
      let t' := setSta F t g (gr.mcsta.erase s)
      if gr.mcsta.erase s = [] then delGr F t' g else t'
    else t

/-- The loop of `mtlk_mc_drop_sta` over the groups of a bucket: of each group the first station with
the address is taken out, and the group with it when it was the only one. -/
def dropLoop (mac : Addr) : Table α → List (Gr α) → Table α
  | t, [] => t
  | t, gr :: grNext =>
    if gr.mcsta.any fun s => s.addr = mac then
      let left := gr.mcsta.eraseP fun s => s.addr = mac
      let t' := setSta F t gr.addr left
      dropLoop mac (if left = [] then delGr F t' gr.addr else t') grNext
    else dropLoop mac t grNext

/-- `mtlk_mc_drop_sta`, for one family. -/
def dropSta (mac : Addr) : Table α :=
  (List.range 64).foldl (fun t i => dropLoop F mac t (t i)) t

end Calls

/-- Every group is in the bucket of its address, and no address has two groups. -/
structure Located {α : Type} (F : Family α) (t : Table α) : Prop where
  home : ∀ i, ∀ gr ∈ t i, F.hash gr.addr = i
  once : ∀ i, ((t i).map Gr.addr).Nodup

variable {α : Type} {F : Family α} {t : Table α} {g g' : α} {gr : Gr α} {s : Sta} {mac : Addr}
  {l : List Sta} {groups : List (Gr α)}

theorem located_update (h : Located F t) {i : Nat} {b : List (Gr α)}
    (home : ∀ gr ∈ b, F.hash gr.addr = i) (once : (b.map Gr.addr).Nodup) :
    Located F (Function.update t i b) := by
  constructor
  case home =>
    intro j gr mem
    by_cases here : j = i
    · subst here
      rw [Function.update_self] at mem
      exact home gr mem
    · rw [Function.update_of_ne here] at mem
      exact h.home j gr mem
  case once =>
    intro j
    by_cases here : j = i
    · subst here
      rwa [Function.update_self]
    · rw [Function.update_of_ne here]
      exact h.once j

variable [DecidableEq α]

/-- The stations of the group of an address, if there is a group. -/
def view (F : Family α) (t : Table α) (g : α) : Option (List Sta) :=
  (findGr F t g).map Gr.mcsta

theorem findGr_eq_some (h : Located F t) :
    findGr F t g = some gr ↔ gr ∈ t (F.hash g) ∧ gr.addr = g := by
  constructor
  · intro found
    exact ⟨List.mem_of_find?_eq_some found, by simpa using List.find?_some found⟩
  · rintro ⟨mem, rfl⟩
    cases found : findGr F t gr.addr with
    | none =>
      have absent := List.find?_eq_none.1 found gr mem
      simp at absent
    | some gr' =>
      have mem' := List.mem_of_find?_eq_some found
      have is : gr'.addr = gr.addr := by simpa using List.find?_some found
      rw [List.inj_on_of_nodup_map (h.once _) mem' mem is]

/-- The groups in the buckets are those found under their addresses. -/
theorem Located.mem_iff (h : Located F t) {i : Nat} :
    gr ∈ t i ↔ findGr F t gr.addr = some gr ∧ F.hash gr.addr = i := by
  rw [findGr_eq_some h]
  constructor
  · intro mem
    have home := h.home i gr mem
    exact ⟨⟨home ▸ mem, rfl⟩, home⟩
  · rintro ⟨⟨mem, -⟩, rfl⟩
    exact mem

theorem view_eq_none : view F t g = none ↔ findGr F t g = none :=
  Option.map_eq_none_iff

/-- What is done to the bucket of an address is seen under the addresses of that bucket only. -/
theorem findGr_update_of_ne {b : List (Gr α)} {i : Nat} (ne : F.hash g ≠ i) :
    findGr F (Function.update t i b) g = findGr F t g := by
  rw [findGr, Function.update_of_ne ne, findGr]

section Push

theorem pushGr_located (h : Located F t) (absent : findGr F t g = none) :
    Located F (pushGr F t g) := by
  apply located_update h
  · intro gr mem
    rcases List.mem_cons.1 mem with rfl | mem
    · rfl
    · exact h.home _ gr mem
  · rw [List.map_cons, List.nodup_cons]
    refine ⟨?_, h.once _⟩
    intro mem
    obtain ⟨gr, mem, is⟩ := List.mem_map.1 mem
    exact List.find?_eq_none.1 absent gr mem (by simpa using is)

theorem view_pushGr (F : Family α) (t : Table α) (g : α) :
    view F (pushGr F t g) = Function.update (view F t) g (some []) := by
  funext g'
  by_cases same : g' = g
  · subst same
    rw [Function.update_self, view, findGr, pushGr, Function.update_self,
      List.find?_cons_of_pos (by simp)]
    rfl
  · rw [Function.update_of_ne same, view, view]
    by_cases bucket : F.hash g' = F.hash g
    · rw [findGr, findGr, pushGr, bucket, Function.update_self,
        List.find?_cons_of_neg (by simpa using Ne.symm same)]
    · rw [pushGr, findGr_update_of_ne bucket]

end Push

section Set

theorem map_setSta_addr (g : α) (l : List Sta) (groups : List (Gr α)) :
    (groups.map fun gr => if gr.addr = g then { gr with mcsta := l } else gr).map Gr.addr =
      groups.map Gr.addr := by
  rw [List.map_map]
  apply List.map_congr_left
  intro gr _
  simp only [Function.comp_apply]
  split <;> rfl

theorem setSta_located (h : Located F t) (g : α) (l : List Sta) : Located F (setSta F t g l) := by
  apply located_update h
  · intro gr mem
    obtain ⟨gr', mem', rfl⟩ := List.mem_map.1 mem
    rw [← h.home _ gr' mem']
    split <;> rfl
  · rw [map_setSta_addr]
    exact h.once _

theorem find?_setSta (g g' : α) (l : List Sta) (groups : List (Gr α)) :
    (groups.map fun gr => if gr.addr = g then { gr with mcsta := l } else gr).find?
        (fun gr => gr.addr = g') =
      (groups.find? fun gr => gr.addr = g').map fun gr =>
        if gr.addr = g then { gr with mcsta := l } else gr := by
  rw [List.find?_map]
  congr 2
  funext gr
  simp only [Function.comp_apply]
  split <;> rfl

theorem view_setSta (present : view F t g ≠ none) :
    view F (setSta F t g l) = Function.update (view F t) g (some l) := by
  funext g'
  have seen : view F (setSta F t g l) g' =
      if F.hash g' = F.hash g then ((findGr F t g').map fun gr =>
        if gr.addr = g then { gr with mcsta := l } else gr).map Gr.mcsta else view F t g' := by
    split
    · case isTrue bucket =>
      rw [view, findGr, setSta, bucket, Function.update_self, find?_setSta, findGr, bucket]
    · case isFalse bucket => rw [view, setSta, findGr_update_of_ne bucket, view]
  rw [seen]
  by_cases same : g' = g
  · subst same
    obtain ⟨gr, found⟩ := Option.ne_none_iff_exists'.1 (mt view_eq_none.2 present)
    have is : gr.addr = g' := by simpa using List.find?_some found
    rw [if_pos rfl, Function.update_self, found]
    simp only [Option.map_some, if_pos is]
  · rw [Function.update_of_ne same]
    split
    · rw [view]
      cases found : findGr F t g' with
      | none => rfl
      | some gr =>
        have is : gr.addr = g' := by simpa using List.find?_some found
        simp only [Option.map_some]
        rw [if_neg (is ▸ same)]
    · rfl

end Set

section Delete

theorem delGr_located (h : Located F t) (g : α) : Located F (delGr F t g) := by
  apply located_update h
  · intro gr mem
    exact h.home _ gr (List.mem_of_mem_eraseP mem)
  · exact (List.eraseP_sublist.map Gr.addr).nodup (h.once _)

theorem find?_eraseP_addr (once : (groups.map Gr.addr).Nodup) (g g' : α) :
    (groups.eraseP fun gr => gr.addr = g).find? (fun gr => gr.addr = g') =
      if g' = g then none else groups.find? fun gr => gr.addr = g' := by
  induction groups with
  | nil => simp
  | cons gr groups ih =>
    obtain ⟨out, once⟩ := List.nodup_cons.1 once
    by_cases here : gr.addr = g
    · rw [List.eraseP_cons_of_pos (by simpa using here)]
      split
      · case isTrue same =>
        rw [List.find?_eq_none]
        intro gr' mem is
        apply out
        rw [here, ← same, ← of_decide_eq_true is]
        exact List.mem_map_of_mem mem
      · case isFalse other =>
        rw [List.find?_cons_of_neg (by simpa [here] using Ne.symm other)]
    · rw [List.eraseP_cons_of_neg (by simpa using here)]
      by_cases found : gr.addr = g'
      · rw [List.find?_cons_of_pos (by simpa using found),
          List.find?_cons_of_pos (by simpa using found), if_neg (found ▸ here)]
      · rw [List.find?_cons_of_neg (by simpa using found),
          List.find?_cons_of_neg (by simpa using found), ih once]

theorem view_delGr (h : Located F t) (g : α) :
    view F (delGr F t g) = Function.update (view F t) g none := by
  funext g'
  by_cases bucket : F.hash g' = F.hash g
  · rw [view, findGr, delGr, bucket, Function.update_self, find?_eraseP_addr (h.once _)]
    split
    · case isTrue same =>
      rw [same, Function.update_self]
      rfl
    · case isFalse other => rw [Function.update_of_ne other, view, findGr, bucket]
  · have other : g' ≠ g := by
      rintro rfl
      exact bucket rfl
    rw [view, delGr, findGr_update_of_ne bucket, Function.update_of_ne other, view]

end Delete

/-- A group without stations is none. -/
def trimmed (l : List Sta) : Option (List Sta) :=
  if l = [] then none else some l

theorem findGr_iff_view : findGr F t g = some gr ↔ view F t g = some gr.mcsta ∧ gr.addr = g := by
  constructor
  · intro found
    exact ⟨by rw [view, found, Option.map_some], by simpa using List.find?_some found⟩
  · rintro ⟨seen, rfl⟩
    obtain ⟨gr', found, same⟩ := Option.map_eq_some_iff.1 seen
    have is : gr'.addr = gr.addr := by simpa using List.find?_some found
    rw [found]
    obtain ⟨addr, mcsta⟩ := gr
    obtain ⟨addr', mcsta'⟩ := gr'
    simp only at same is
    rw [same, is]

/-- The stations of a group are written, and the group is deleted when they are none. -/
theorem view_setSta_trimmed (h : Located F t) (present : view F t g ≠ none) :
    view F (if l = [] then delGr F (setSta F t g l) g else setSta F t g l) =
      Function.update (view F t) g (trimmed l) := by
  unfold trimmed
  split
  · rw [view_delGr (setSta_located h g l), view_setSta present, Function.update_idem]
  · exact view_setSta present

theorem setSta_trimmed_located (h : Located F t) :
    Located F (if l = [] then delGr F (setSta F t g l) g else setSta F t g l) := by
  split
  · exact delGr_located (setSta_located h g l) g
  · exact setSta_located h g l

section Add

theorem addSta_located (h : Located F t) (s : Sta) (g : α) : Located F (addSta F t s g) := by
  unfold addSta
  split
  · exact h
  · have h' : Located F (if findGr F t g = none then pushGr F t g else t) := by
      split
      · case isTrue absent => exact pushGr_located h absent
      · exact h
    dsimp only
    split
    · exact h'
    · split
      · exact h'
      · exact setSta_located h' g _

/-- A station joins a group, which is made when it is not there. -/
theorem view_addSta (global : F.linkLocal g = false) :
    view F (addSta F t s g) =
      Function.update (view F t) g (some (((view F t g).getD []).insert s)) := by
  have made : view F (if findGr F t g = none then pushGr F t g else t) =
      Function.update (view F t) g (some ((view F t g).getD [])) := by
    split
    · case isTrue absent => rw [view_pushGr, view_eq_none.2 absent, Option.getD_none]
    · case isFalse present =>
      obtain ⟨l, seen⟩ := Option.ne_none_iff_exists'.1 (mt view_eq_none.1 present)
      rw [seen, Option.getD_some, ← seen, Function.update_eq_self]
  have seen := congrFun made g
  rw [Function.update_self] at seen
  unfold addSta
  rw [if_neg (by simp [global])]
  dsimp only
  split
  · case h_1 absent =>
    rw [view_eq_none.2 absent] at seen
    cases seen
  · case h_2 gr found =>
    have is := (findGr_iff_view.1 found).1
    rw [seen, Option.some.injEq] at is
    rw [is]
    split
    · case isTrue mem => rw [made, is, List.insert_of_mem mem]
    · case isFalse nmem =>
      rw [view_setSta (by rw [seen]; exact nofun), made, Function.update_idem,
        List.insert_of_not_mem nmem]

end Add

section Leave

theorem delSta_located (h : Located F t) (s : Sta) (g : α) : Located F (delSta F t s g) := by
  unfold delSta
  split
  · exact h
  · split
    · exact setSta_trimmed_located h
    · exact h

/-- A station leaves a group, which goes with its last station. -/
theorem view_delSta (h : Located F t) (filled : view F t g ≠ some []) :
    view F (delSta F t s g) =
      Function.update (view F t) g ((view F t g).bind fun l => trimmed (l.erase s)) := by
  unfold delSta
  split
  · case h_1 absent =>
    have none := view_eq_none.2 absent
    rw [none, Option.bind_none, ← none, Function.update_eq_self]
  · case h_2 gr found =>
    have seen := (findGr_iff_view.1 found).1
    rw [seen, Option.bind_some]
    split
    · exact view_setSta_trimmed h (by rw [seen]; exact nofun)
    · case isFalse nmem =>
      have some : trimmed gr.mcsta = some gr.mcsta := by
        apply if_neg
        intro nil
        rw [seen, nil] at filled
        exact filled rfl
      rw [List.erase_of_not_mem nmem, some, ← seen, Function.update_eq_self]

end Leave

section Drop

/-- What `mtlk_mc_drop_sta` leaves of the stations of a group. -/
def dropped (mac : Addr) (l : List Sta) : Option (List Sta) :=
  trimmed (l.eraseP fun s => s.addr = mac)

theorem dropLoop_spec (mac : Addr) (h : Located F t) (once : (groups.map Gr.addr).Nodup)
    (seen : ∀ gr ∈ groups, view F t gr.addr = some gr.mcsta ∧ gr.mcsta ≠ []) :
    Located F (dropLoop F mac t groups) ∧ ∀ g, view F (dropLoop F mac t groups) g =
      if g ∈ groups.map Gr.addr then (view F t g).bind (dropped mac) else view F t g := by
  induction groups generalizing t with
  | nil => exact ⟨h, fun g => rfl⟩
  | cons gr groups ih =>
    obtain ⟨out, once⟩ := List.nodup_cons.1 once
    obtain ⟨here, filled⟩ := seen gr List.mem_cons_self
    -- The group is changed or not; either way the others are as they were.
    have one : ∃ t', dropLoop F mac t (gr :: groups) = dropLoop F mac t' groups ∧ Located F t' ∧
        view F t' = Function.update (view F t) gr.addr (dropped mac gr.mcsta) := by
      rw [dropLoop]
      split
      · exact ⟨_, rfl, setSta_trimmed_located h,
          view_setSta_trimmed h (by rw [here]; exact nofun)⟩
      · case isFalse no =>
        refine ⟨t, rfl, h, ?_⟩
        have same : dropped mac gr.mcsta = some gr.mcsta := by
          rw [dropped, List.eraseP_of_forall_not, trimmed, if_neg filled]
          simpa using no
        rw [same, ← here, Function.update_eq_self]
    obtain ⟨t', eq, located, view'⟩ := one
    have others : ∀ g, g ≠ gr.addr → view F t' g = view F t g := by
      intro g ne
      rw [view', Function.update_of_ne ne]
    obtain ⟨located', views⟩ := ih located once (by
      intro gr' mem
      rw [others]
      · exact seen gr' (List.mem_cons_of_mem _ mem)
      · intro same
        exact out (same ▸ List.mem_map_of_mem mem))
    rw [eq]
    refine ⟨located', ?_⟩
    intro g
    rw [views g]
    by_cases first : g = gr.addr
    · subst first
      rw [if_neg out, if_pos (by simp), here, view', Function.update_self, Option.bind_some]
    · rw [others g first]
      simp only [List.map_cons, List.mem_cons, first, false_or]

/-- Of every group the first station with the address is gone, and with it a group of which it was
the only one. -/
theorem dropSta_spec (h : Located F t) (filled : ∀ g, view F t g ≠ some []) (mac : Addr) :
    Located F (dropSta F t mac) ∧
      ∀ g, view F (dropSta F t mac) g = (view F t g).bind (dropped mac) := by
  have buckets : ∀ n, Located F ((List.range n).foldl (fun t i => dropLoop F mac t (t i)) t) ∧
      ∀ g, view F ((List.range n).foldl (fun t i => dropLoop F mac t (t i)) t) g =
        if F.hash g < n then (view F t g).bind (dropped mac) else view F t g := by
    intro n
    induction n with
    | zero => exact ⟨h, fun g => (if_neg (Nat.not_lt_zero _)).symm⟩
    | succ n ih =>
      obtain ⟨located, views⟩ := ih
      rw [List.range_succ, List.foldl_append, List.foldl_cons, List.foldl_nil]
      have untouched : ∀ g, F.hash g = n → view F
          ((List.range n).foldl (fun t i => dropLoop F mac t (t i)) t) g = view F t g := by
        intro g bucket
        rw [views g, if_neg (by omega)]
      obtain ⟨located', views'⟩ := dropLoop_spec mac located (located.once n) (by
        intro gr mem
        obtain ⟨found, bucket⟩ := located.mem_iff.1 mem
        have seen := (findGr_iff_view.1 found).1
        refine ⟨seen, ?_⟩
        intro nil
        rw [untouched _ bucket, nil] at seen
        exact filled _ seen)
      refine ⟨located', ?_⟩
      intro g
      rw [views' g]
      by_cases bucket : F.hash g = n
      · rw [untouched g bucket, if_pos (by omega : F.hash g < n + 1)]
        split
        · rfl
        · case isFalse out =>
          have none : view F t g = none := by
            rw [← untouched g bucket, view_eq_none]
            cases found : findGr F _ g with
            | none => rfl
            | some gr =>
              obtain ⟨mem, is⟩ := (findGr_eq_some located).1 found
              rw [bucket] at mem
              exact absurd (List.mem_map.2 ⟨gr, mem, is⟩) out
          rw [none, Option.bind_none]
      · have out : g ∉ (((List.range n).foldl (fun t i => dropLoop F mac t (t i)) t) n).map
            Gr.addr := by
          intro mem
          obtain ⟨gr, has, rfl⟩ := List.mem_map.1 mem
          exact bucket (located.home n gr has)
        rw [if_neg out, views g]
        split <;> split <;> first | rfl | omega
  obtain ⟨located, views⟩ := buckets 64
  refine ⟨located, ?_⟩
  intro g
  exact (views g).trans (if_pos (F.hash_lt g))

end Drop

end Wave300.Mcast
