import Wave300.Mcast.Messages

/-!
# Who is in which group

The tables together with the station database, which has one entry for an address: the source of a
frame is looked up in it, and a station that is removed from it is dropped from the groups. Against
them stands what the tables are for, a set of stations for each group of either family.
-/

namespace Wave300.Mcast

open Hstdb (Sta Addr)

structure Sys where
  stadb : List Sta
  mcast : Ctx

inductive Event where
  | addSta (s : Sta)
  | receive (addr2 : Addr) (frame : Memory)
  | removeSta (mac : Addr)
  | mcDropSta (mac : Addr)

/-- `mtlk_stadb_find_sta` -/
def findSta (stadb : List Sta) (mac : Addr) : Option Sta :=
  stadb.find? fun s => s.addr = mac

/-- `mtlk_stadb_add_sta` refuses a station whose address is there already; a frame of no station is
not parsed. -/
def Sys.step (sys : Sys) : Event → Sys
  | .addSta s =>
    match findSta sys.stadb s.addr with
    | some _ => sys
    | none => { sys with stadb := s :: sys.stadb }
  | .receive addr2 frame =>
    match findSta sys.stadb addr2 with
    | some s => { sys with mcast := mcParse frame s sys.mcast }
    | none => sys
  | .removeSta mac =>
    match findSta sys.stadb mac with
    | some s => { stadb := sys.stadb.erase s, mcast := mcDropSta s.addr sys.mcast }
    | none => sys
  | .mcDropSta mac => { sys with mcast := mcDropSta mac sys.mcast }

/-- `mtlk_mc_init` -/
def Sys.init : Sys := ⟨[], fun _ => [], fun _ => []⟩

/-- The stations that are in a group: they joined it and have not left it. -/
abbrev Members (α : Type) := α → Sta → Prop

/-- A group of the link-local space is joined by nobody. -/
def Members.report {α : Type} (F : Family α) (s : Sta) (m : Members α) : Report α → Members α
  | .join g => fun g' x => m g' x ∨ g' = g ∧ x = s ∧ F.linkLocal g = false
  | .leave g => fun g' x => m g' x ∧ ¬ (g' = g ∧ x = s)

def Members.drop {α : Type} (mac : Addr) (m : Members α) : Members α :=
  fun g x => m g x ∧ x.addr ≠ mac

structure Spec where
  stadb : List Sta
  in4 : Members UInt32
  in6 : Members Ip6

def Spec.receive (frame : Memory) (s : Sta) (m : Spec) : Spec :=
  match message frame with
  | .igmp off => { m with in4 := (igmpReports frame off).foldl (Members.report ip4 s) m.in4 }
  | .icmp6 off => { m with in6 := (icmp6Reports frame off).foldl (Members.report ip6 s) m.in6 }
  | .other => m

def Spec.drop (mac : Addr) (m : Spec) : Spec :=
  { m with in4 := m.in4.drop mac, in6 := m.in6.drop mac }

def Spec.step (m : Spec) : Event → Spec
  | .addSta s =>
    match findSta m.stadb s.addr with
    | some _ => m
    | none => { m with stadb := s :: m.stadb }
  | .receive addr2 frame =>
    match findSta m.stadb addr2 with
    | some s => m.receive frame s
    | none => m
  | .removeSta mac =>
    match findSta m.stadb mac with
    | some s => { m.drop s.addr with stadb := m.stadb.erase s }
    | none => m
  | .mcDropSta mac => m.drop mac

def Spec.init : Spec := ⟨[], fun _ _ => False, fun _ _ => False⟩

/-- A table is a map from addresses to sets of stations. -/
structure IsMap {α : Type} [DecidableEq α] (F : Family α) (t : Table α) (m : Members α) :
    Prop where
  home : ∀ i, ∀ gr ∈ t i, F.hash gr.addr = i
  once : ∀ i, ((t i).map Gr.addr).Nodup
  member_once : ∀ i, ∀ gr ∈ t i, gr.mcsta.Nodup
  filled : ∀ i, ∀ gr ∈ t i, gr.mcsta ≠ []
  find : ∀ g, (∃ gr, findGr F t g = some gr) ↔ ∃ x, m g x
  members : ∀ g gr, findGr F t g = some gr → gr.addr = g ∧ ∀ x, x ∈ gr.mcsta ↔ m g x

section Family
variable {α : Type} [DecidableEq α] {F : Family α} {t : Table α} {m : Members α} {s : Sta}
  {mac : Addr} {l : List Sta} {o : Option (List Sta)} {p : Sta → Prop}

/-- What is seen of a group lists the stations that are in it. -/
structure Lists (o : Option (List Sta)) (p : Sta → Prop) : Prop where
  nodup : (o.getD []).Nodup
  filled : o ≠ some []
  mem : ∀ x, x ∈ o.getD [] ↔ p x

structure Holds (F : Family α) (t : Table α) (m : Members α) : Prop where
  located : Located F t
  lists : ∀ g, Lists (view F t g) (m g)

theorem trimmed_getD (l : List Sta) : (trimmed l).getD [] = l := by
  unfold trimmed
  split
  · case isTrue nil => rw [nil, Option.getD_none]
  · rfl

theorem trimmed_ne (l : List Sta) : trimmed l ≠ some [] := by
  unfold trimmed
  split
  · exact nofun
  · case isFalse ne => exact fun eq => ne (Option.some.inj eq)

/-- Stations are taken out of a group by a function that gives none for none. -/
theorem Lists.bind {f : List Sta → List Sta} {q : Sta → Prop} (h : Lists o p) (nil : f [] = [])
    (fewer : (f (o.getD [])).Sublist (o.getD [])) (mem : ∀ x, x ∈ f (o.getD []) ↔ q x) :
    Lists (o.bind fun l => trimmed (f l)) q := by
  have left : (o.bind fun l => trimmed (f l)).getD [] = f (o.getD []) := by
    cases o with
    | none => exact nil.symm
    | some l => exact trimmed_getD (f l)
  constructor
  case nodup =>
    rw [left]
    exact fewer.nodup h.nodup
  case filled =>
    cases o with
    | none => exact nofun
    | some l => exact trimmed_ne (f l)
  case mem =>
    intro x
    rw [left]
    exact mem x

theorem Holds.join (h : Holds F t m) (s : Sta) (g : α) :
    Holds F (addSta F t s g) (m.report F s (.join g)) := by
  refine ⟨addSta_located h.located s g, ?_⟩
  intro g'
  cases link : F.linkLocal g with
  | true =>
    have same : addSta F t s g = t := if_pos link
    rw [same]
    have lists := h.lists g'
    exact ⟨lists.nodup, lists.filled, fun x => by simp [lists.mem x, Members.report, link]⟩
  | false =>
    rw [view_addSta link]
    by_cases here : g' = g
    · subst here
      have lists := h.lists g'
      rw [Function.update_self]
      refine ⟨lists.nodup.insert, ?_, ?_⟩
      · intro eq
        have mem : s ∈ ((view F t g').getD []).insert s := List.mem_insert_self
        rw [Option.some.inj eq] at mem
        exact absurd mem List.not_mem_nil
      · intro x
        rw [Option.getD_some, List.mem_insert_iff, lists.mem x]
        simp only [Members.report, link, true_and, and_true]
        exact or_comm
    · rw [Function.update_of_ne here]
      have lists := h.lists g'
      exact ⟨lists.nodup, lists.filled, fun x => by simp [lists.mem x, Members.report, here]⟩

theorem Holds.leave (h : Holds F t m) (s : Sta) (g : α) :
    Holds F (delSta F t s g) (m.report F s (.leave g)) := by
  refine ⟨delSta_located h.located s g, ?_⟩
  intro g'
  rw [view_delSta h.located (h.lists g).filled]
  by_cases here : g' = g
  · subst here
    have lists := h.lists g'
    rw [Function.update_self]
    apply lists.bind (f := fun l => l.erase s) (List.erase_nil s) List.erase_sublist
    intro x
    rw [lists.nodup.mem_erase_iff, lists.mem x]
    simp only [Members.report, true_and]
    exact and_comm
  · rw [Function.update_of_ne here]
    have lists := h.lists g'
    exact ⟨lists.nodup, lists.filled, fun x => by simp [lists.mem x, Members.report, here]⟩

theorem Holds.reports (h : Holds F t m) (s : Sta) (reports : List (Report α)) :
    Holds F (reports.foldl (applyReport F s) t) (reports.foldl (Members.report F s) m) := by
  induction reports generalizing t m with
  | nil => exact h
  | cons r reports ih =>
    apply ih
    cases r with
    | join g => exact h.join s g
    | leave g => exact h.leave s g

theorem mem_eraseP_addr {x : Sta} (one : ∀ x ∈ l, ∀ y ∈ l, x.addr = y.addr → x = y)
    (nodup : l.Nodup) :
    x ∈ l.eraseP (fun s => s.addr = mac) ↔ x ∈ l ∧ x.addr ≠ mac := by
  induction l with
  | nil => simp
  | cons y l ih =>
    obtain ⟨out, nodup⟩ := List.nodup_cons.1 nodup
    by_cases here : y.addr = mac
    · rw [List.eraseP_cons_of_pos (by simpa using here)]
      constructor
      · intro mem
        refine ⟨List.mem_cons_of_mem _ mem, ?_⟩
        intro is
        have same := one x (List.mem_cons_of_mem _ mem) y List.mem_cons_self (is.trans here.symm)
        exact out (same ▸ mem)
      · rintro ⟨mem, ne⟩
        rcases List.mem_cons.1 mem with rfl | mem
        · exact absurd here ne
        · exact mem
    · rw [List.eraseP_cons_of_neg (by simpa using here), List.mem_cons, List.mem_cons,
        ih (fun x mem z mem' => one x (List.mem_cons_of_mem _ mem) z (List.mem_cons_of_mem _ mem'))
          nodup]
      constructor
      · rintro (rfl | ⟨mem, ne⟩)
        · exact ⟨.inl rfl, here⟩
        · exact ⟨.inr mem, ne⟩
      · rintro ⟨rfl | mem, ne⟩
        · exact .inl rfl
        · exact .inr ⟨mem, ne⟩

/-- As long as no two stations of a group have the same address, dropping an address is taking out
all stations with it. -/
theorem Holds.drop (h : Holds F t m) (one : ∀ g x y, m g x → m g y → x.addr = y.addr → x = y)
    (mac : Addr) : Holds F (dropSta F t mac) (m.drop mac) := by
  obtain ⟨located, views⟩ := dropSta_spec h.located (fun g => (h.lists g).filled) mac
  refine ⟨located, ?_⟩
  intro g
  have lists := h.lists g
  rw [views g]
  apply lists.bind (f := fun l => l.eraseP fun s => s.addr = mac) rfl List.eraseP_sublist
  intro x
  have distinct : ∀ x ∈ (view F t g).getD [], ∀ y ∈ (view F t g).getD [], x.addr = y.addr →
      x = y := by
    intro x mem y mem'
    exact one g x y ((lists.mem x).1 mem) ((lists.mem y).1 mem')
  rw [mem_eraseP_addr distinct lists.nodup, lists.mem x]
  rfl

theorem Holds.isMap (h : Holds F t m) : IsMap F t m := by
  have seen : ∀ g gr, findGr F t g = some gr → view F t g = some gr.mcsta := fun g gr found =>
    (findGr_iff_view.1 found).1
  constructor
  case home => exact h.located.home
  case once => exact h.located.once
  case member_once =>
    intro i gr mem
    have lists := h.lists gr.addr
    rw [seen _ gr (h.located.mem_iff.1 mem).1] at lists
    exact lists.nodup
  case filled =>
    intro i gr mem nil
    have lists := h.lists gr.addr
    rw [seen _ gr (h.located.mem_iff.1 mem).1, nil] at lists
    exact lists.filled rfl
  case find =>
    intro g
    have lists := h.lists g
    constructor
    · rintro ⟨gr, found⟩
      rw [seen g gr found] at lists
      obtain ⟨x, mem⟩ := List.exists_mem_of_ne_nil gr.mcsta fun nil => lists.filled (nil ▸ rfl)
      exact ⟨x, (lists.mem x).1 mem⟩
    · rintro ⟨x, mem⟩
      cases found : findGr F t g with
      | none =>
        have listed := (lists.mem x).2 mem
        rw [view_eq_none.2 found] at listed
        exact absurd listed List.not_mem_nil
      | some gr => exact ⟨gr, rfl⟩
  case members =>
    intro g gr found
    have lists := h.lists g
    rw [seen g gr found] at lists
    exact ⟨(findGr_iff_view.1 found).2, lists.mem⟩

end Family

/-- The tables hold the members, the members are stations of the database, and the database has one
station for an address. -/
structure Refines (sys : Sys) (m : Spec) : Prop where
  stadb : sys.stadb = m.stadb
  holds4 : Holds ip4 sys.mcast.ip4Hash m.in4
  holds6 : Holds ip6 sys.mcast.ip6Hash m.in6
  known4 : ∀ g x, m.in4 g x → x ∈ m.stadb
  known6 : ∀ g x, m.in6 g x → x ∈ m.stadb
  distinct : (m.stadb.map Sta.addr).Nodup

variable {sys : Sys} {m : Spec} {s : Sta}

theorem Refines.one (h : Refines sys m) {x y : Sta} (hx : x ∈ m.stadb) (hy : y ∈ m.stadb)
    (same : x.addr = y.addr) : x = y :=
  List.inj_on_of_nodup_map h.distinct hx hy same

theorem reports_known {α : Type} {F : Family α} {members : Members α} {stadb : List Sta}
    (known : ∀ g x, members g x → x ∈ stadb) (mem : s ∈ stadb) (reports : List (Report α)) :
    ∀ g x, reports.foldl (Members.report F s) members g x → x ∈ stadb := by
  induction reports generalizing members with
  | nil => exact known
  | cons r reports ih =>
    apply ih
    intro g x
    cases r with
    | join g' =>
      rintro (was | ⟨-, rfl, -⟩)
      · exact known g x was
      · exact mem
    | leave g' =>
      rintro ⟨was, -⟩
      exact known g x was

theorem Refines.receive (h : Refines sys m) (mem : s ∈ m.stadb) (frame : Memory) :
    Refines { sys with mcast := mcParse frame s sys.mcast } (m.receive frame s) := by
  unfold mcParse Spec.receive
  cases message frame with
  | igmp off =>
    exact { h with
      holds4 := h.holds4.reports s _
      known4 := reports_known h.known4 mem _ }
  | icmp6 off =>
    exact { h with
      holds6 := h.holds6.reports s _
      known6 := reports_known h.known6 mem _ }
  | other => exact h

theorem Refines.drop (h : Refines sys m) (mac : Addr) :
    Refines { sys with mcast := mcDropSta mac sys.mcast } (m.drop mac) := by
  have holds4 : Holds ip4 (dropSta ip4 sys.mcast.ip4Hash mac) (m.in4.drop mac) := by
    apply h.holds4.drop
    intro g x y hx hy
    exact h.one (h.known4 g x hx) (h.known4 g y hy)
  have holds6 : Holds ip6 (dropSta ip6 sys.mcast.ip6Hash mac) (m.in6.drop mac) := by
    apply h.holds6.drop
    intro g x y hx hy
    exact h.one (h.known6 g x hx) (h.known6 g y hy)
  constructor
  case stadb => exact h.stadb
  case holds4 => simpa only [mcDropSta, Spec.drop] using holds4
  case holds6 => simpa only [mcDropSta, Spec.drop] using holds6
  case known4 => exact fun g x mem => h.known4 g x mem.1
  case known6 => exact fun g x mem => h.known6 g x mem.1
  case distinct => exact h.distinct

theorem findSta_mem {stadb : List Sta} {mac : Addr} (found : findSta stadb mac = some s) :
    s ∈ stadb :=
  List.mem_of_find?_eq_some found

theorem Refines.step (h : Refines sys m) (e : Event) : Refines (sys.step e) (m.step e) := by
  cases e with
  | addSta s =>
    simp only [Sys.step, Spec.step, h.stadb]
    split
    · exact h
    · case h_2 absent =>
      exact { h with
        stadb := rfl
        known4 := fun g x mem => List.mem_cons_of_mem _ (h.known4 g x mem)
        known6 := fun g x mem => List.mem_cons_of_mem _ (h.known6 g x mem)
        distinct := by
          refine List.nodup_cons.2 ⟨?_, h.distinct⟩
          intro mem
          obtain ⟨x, mem, is⟩ := List.mem_map.1 mem
          exact List.find?_eq_none.1 absent x mem (by simpa using is) }
  | receive addr2 frame =>
    simp only [Sys.step, Spec.step, h.stadb]
    split
    · case h_1 found =>
      have received := h.receive (findSta_mem found) frame
      rw [h.stadb] at received
      exact received
    · exact h
  | removeSta mac =>
    simp only [Sys.step, Spec.step, h.stadb]
    split
    · case h_1 s found =>
      have dropped := h.drop s.addr
      have nodup : m.stadb.Nodup := h.distinct.of_map
      exact { dropped with
        stadb := rfl
        known4 := fun g x mem => (nodup.mem_erase_iff).2
          ⟨fun same => mem.2 (same ▸ rfl), h.known4 g x mem.1⟩
        known6 := fun g x mem => (nodup.mem_erase_iff).2
          ⟨fun same => mem.2 (same ▸ rfl), h.known6 g x mem.1⟩
        distinct := (List.erase_sublist.map Sta.addr).nodup h.distinct }
    · exact h
  | mcDropSta mac => exact h.drop mac

theorem refines_init : Refines Sys.init Spec.init where
  stadb := rfl
  holds4 := ⟨⟨fun _ _ mem => absurd mem List.not_mem_nil, fun _ => List.nodup_nil⟩,
    fun _ => ⟨List.nodup_nil, nofun, fun _ => iff_of_false List.not_mem_nil id⟩⟩
  holds6 := ⟨⟨fun _ _ mem => absurd mem List.not_mem_nil, fun _ => List.nodup_nil⟩,
    fun _ => ⟨List.nodup_nil, nofun, fun _ => iff_of_false List.not_mem_nil id⟩⟩
  known4 _ _ := False.elim
  known6 _ _ := False.elim
  distinct := List.nodup_nil

theorem refines_run (events : List Event) (h : Refines sys m) :
    Refines (events.foldl Sys.step sys) (events.foldl Spec.step m) := by
  induction events generalizing sys m with
  | nil => exact h
  | cons e events ih => exact ih (h.step e)

/-- After any events both tables are maps from the groups to the stations that joined them and have
not left them, but for the link-local groups; and dropping an address takes out the stations with
that address, and nothing else. -/
theorem tables_are_maps (events : List Event) :
    IsMap ip4 (events.foldl Sys.step Sys.init).mcast.ip4Hash
        (events.foldl Spec.step Spec.init).in4 ∧
      IsMap ip6 (events.foldl Sys.step Sys.init).mcast.ip6Hash
        (events.foldl Spec.step Spec.init).in6 ∧
      ∀ mac,
        IsMap ip4 (mcDropSta mac (events.foldl Sys.step Sys.init).mcast).ip4Hash
          (fun g x => (events.foldl Spec.step Spec.init).in4 g x ∧ x.addr ≠ mac) ∧
        IsMap ip6 (mcDropSta mac (events.foldl Sys.step Sys.init).mcast).ip6Hash
          (fun g x => (events.foldl Spec.step Spec.init).in6 g x ∧ x.addr ≠ mac) := by
  have h := refines_run events refines_init
  refine ⟨h.holds4.isMap, h.holds6.isMap, ?_⟩
  intro mac
  have dropped := h.drop mac
  exact ⟨dropped.holds4.isMap, dropped.holds6.isMap⟩

/-- An IGMP report of version 2 for the group of multicast DNS, 224.0.0.251, in a frame. -/
def mdnsReport : Memory := fun i =>
  ([1, 0, 94, 0, 0, 251, 2, 2, 2, 2, 2, 2, 8, 0,
    69, 0, 0, 28, 0, 0, 0, 0, 1, 2, 0, 0, 192, 168, 1, 7, 224, 0, 0, 251,
    0x16, 0, 0, 0, 224, 0, 0, 251] : List UInt8).getD i 0

/-- The only station joins it and does not leave it, and it is not found. -/
theorem link_local_group_not_found :
    igmpReports mdnsReport 34 = [.join 0xE00000FB] ∧
      findGr ip4 ([Event.addSta ⟨0, fun _ => 2⟩, .receive (fun _ => 2) mdnsReport].foldl Sys.step
        Sys.init).mcast.ip4Hash 0xE00000FB = none := by
  decide

end Wave300.Mcast
