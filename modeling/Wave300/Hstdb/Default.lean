import Wave300.Hstdb.Hosts
import Wave300.Lib.Trace

/-!
# The default host

The default host is one of the hosts known, or none. Of the ways a host is removed, one does not
look whether it was the default host.
-/

namespace Wave300.Hstdb

open Lib

variable {db : Db} {env : Env} {mac : Addr} {s : Sta} {h : Host} {r : Refs} {l : List Host}

/-- The default host is none, the driver itself or a host of the database. -/
def Known (db : Db) : Prop :=
  db.defaultHost = (fun _ => 0) ∨ db.defaultHost = db.localMac ∨
    ∃ h ∈ db.hosts, h.addr = db.defaultHost

/-- A host that is removed by its address is not the default host. -/
def Keeps (db : Db) : Call → Prop
  | (.removeHostByAddr mac, _) => (∃ h ∈ db.hosts, h.addr = mac) → db.defaultHost = mac →
      mac = (fun _ => 0) ∨ mac = db.localMac
  | _ => True

instance : Decidable (Known db) :=
  inferInstanceAs (Decidable (_ ∨ _ ∨ _))

instance : DecidablePred (Keeps db)
  | (.removeHostByAddr _, _) => inferInstanceAs (Decidable (_ → _ → _))
  | (.updateHost .., _) | (.addHost .., _) | (.removeHost _, _) | (.removeAllBySta _, _)
  | (.stopAllBySta _, _) | (.startAllBySta _, _) | (.wdsDisconnectTmr .., _) => .isTrue trivial

section Hosts

theorem hstStop_addr (r : Refs) (h : Host) : (hstStop r h).2.addr = h.addr := by
  unfold hstStop
  dsimp only
  split <;> rfl

theorem hstStart_addr (env : Env) (s : Sta) (r : Refs) (h : Host) :
    (hstStart env s r h).2.addr = h.addr := by
  unfold hstStart
  dsimp only
  split
  · rfl
  · exact hstStop_addr ..

theorem hstUpdate_addr (env : Env) (s : Sta) (r : Refs) (h : Host) :
    (hstUpdate env s r h).2.addr = h.addr := by
  unfold hstUpdate
  dsimp only
  split
  · rfl
  · rw [hstStart_addr]
    split
    · exact hstStop_addr ..
    · rfl

/-- A loop that changes no address leaves the addresses in their places. -/
theorem forEach_addr {p : Host → Bool} {f : Refs → Host → Refs × Host}
    (same : ∀ r h, (f r h).2.addr = h.addr) (r : Refs) (l : List Host) :
    (forEach p f r l).2.map Host.addr = l.map Host.addr := by
  induction l generalizing r with
  | nil => rfl
  | cons h l ih =>
    simp only [forEach, List.map_cons, ih]
    split
    · rw [same]
    · rfl

theorem hashInsert_perm (h : Host) (l : List Host) : (hashInsert h l).Perm (h :: l) := by
  induction l with
  | nil => exact .refl _
  | cons x l ih =>
    rw [hashInsert]
    split
    · exact (ih.cons x).trans (.swap ..)
    · exact .refl _

theorem hashFind_eq_none : hashFind mac l = none ↔ mac ∉ l.map Host.addr := by
  simp [hashFind]

theorem hashFind_mem (found : hashFind mac l = some h) : h ∈ l ∧ h.addr = mac :=
  ⟨List.mem_of_find?_eq_some found, by simpa using List.find?_some found⟩

theorem mem_hashRemove (distinct : (l.map Host.addr).Nodup) (found : hashFind mac l = some h)
    {x : Addr} : x ∈ (hashRemove mac l).map Host.addr ↔ x ∈ l.map Host.addr ∧ x ≠ mac := by
  induction l with
  | nil => cases found
  | cons y l ih =>
    obtain ⟨out, distinct⟩ := List.nodup_cons.1 distinct
    by_cases here : y.addr = mac
    · rw [hashRemove, List.eraseP_cons_of_pos (by simpa using here), List.map_cons, List.mem_cons,
        ← here]
      constructor
      · intro mem
        refine ⟨.inr mem, ?_⟩
        rintro rfl
        exact out mem
      · rintro ⟨rfl | mem, ne⟩
        · exact absurd rfl ne
        · exact mem
    · have found : hashFind mac l = some h := by
        rwa [hashFind, List.find?_cons_of_neg (by simpa using here)] at found
      rw [hashRemove, List.eraseP_cons_of_neg (by simpa using here), List.map_cons, List.map_cons,
        List.mem_cons, List.mem_cons, show x ∈ List.map Host.addr (List.eraseP _ l) ↔ _ from
        ih distinct found]
      constructor
      · rintro (rfl | ⟨mem, ne⟩)
        · exact ⟨.inl rfl, here⟩
        · exact ⟨.inr mem, ne⟩
      · rintro ⟨rfl | mem, ne⟩
        · exact .inl rfl
        · exact .inr ⟨mem, ne⟩

theorem hashRemove_sublist (mac : Addr) (l : List Host) : (hashRemove mac l).Sublist l :=
  List.eraseP_sublist

theorem newestHost_mem {newest : Option Host} {d : UInt32}
    (found : newestHost env l newest d = some h) : h ∈ l ∨ newest = some h := by
  induction l generalizing newest d with
  | nil => exact .inr found
  | cons x l ih =>
    rw [newestHost] at found
    split at found
    · rcases ih found with mem | eq
      · exact .inl (List.mem_cons_of_mem _ mem)
      · obtain rfl := Option.some.inj eq
        exact .inl List.mem_cons_self
    · exact (ih found).imp_left (List.mem_cons_of_mem _)

/-- The hosts behind the station go, and it is noticed whether the default host was one of them. -/
theorem removeLoop_spec (s : Sta) (d : Addr) (r : Refs) (b : Bool) (l : List Host) :
    (Db.removeLoop s d r b l).2.2 = l.filter (fun h => h.sta ≠ some s) ∧
      ((Db.removeLoop s d r b l).2.1 = true ↔ b = true ∨ ∃ h ∈ l, h.sta = some s ∧ d = h.addr) := by
  induction l generalizing r b with
  | nil => exact ⟨rfl, by simp [Db.removeLoop]⟩
  | cons h l ih =>
    by_cases behind : h.sta = some s
    · rw [Db.removeLoop, if_pos behind, (ih _ _).1, (ih _ _).2]
      constructor
      · simp [behind]
      · simp [behind, or_assoc]
    · rw [Db.removeLoop, if_neg behind]
      constructor
      · simp [behind, (ih r b).1]
      · simpa [behind] using (ih r b).2

end Hosts

namespace Db

theorem recalcDefaultHost_known (env : Env) (db : Db) : Known (db.recalcDefaultHost env) := by
  cases newest : newestHost env db.hosts none 0xFFFFFFFF with
  | none =>
    left
    simp only [recalcDefaultHost, newest]
  | some h =>
    right; right
    refine ⟨h, ?_, ?_⟩
    · rcases newestHost_mem newest with mem | ⟨⟨⟩⟩
      exact mem
    · simp only [recalcDefaultHost, newest]

theorem updateDefaultHost_hosts (mac : Addr) (db : Db) :
    (db.updateDefaultHost mac).hosts = db.hosts := by
  unfold updateDefaultHost
  split <;> rfl

theorem updateDefaultHost_refs (mac : Addr) (db : Db) :
    (db.updateDefaultHost mac).refs = db.refs := by
  unfold updateDefaultHost
  split <;> rfl

theorem removeHost_hosts (env : Env) (h : Host) (db : Db) :
    (db.removeHost env h).hosts = hashRemove h.addr db.hosts := by
  unfold removeHost
  dsimp only
  split <;> rfl

end Db

/-- Whether the default host is known is a matter of the addresses. -/
theorem known_iff : Known db ↔ db.defaultHost = (fun _ => 0) ∨ db.defaultHost = db.localMac ∨
    db.defaultHost ∈ db.hosts.map Host.addr := by
  rw [Known, List.mem_map]

/-- Nobody changes the references a host entry has into its address. -/
theorem known_refs (r : Refs) : Known { db with refs := r } ↔ Known db :=
  Iff.rfl

theorem Known.of_addr {hosts : List Host} (known : Known db)
    (same : hosts.map Host.addr = db.hosts.map Host.addr) :
    Known { db with refs := r, hosts } := by
  rw [known_iff] at known ⊢
  simpa only [same] using known

theorem addHost_known (known : Known db) : Known (db.addHost env mac s) := by
  unfold Db.addHost
  dsimp only
  split
  · exact known
  · split
    · exact known
    · split
      · exact known
      · have mem : ∀ x ∈ db.hosts.map Host.addr, x ∈ (hashInsert (hstStart env s db.refs
            (hstInit mac)).2 db.hosts).map Host.addr := by
          intro x mem
          exact ((hashInsert_perm _ _).map Host.addr).mem_iff.2 (List.mem_cons_of_mem _ mem)
        have is : (hstStart env s db.refs (hstInit mac)).2.addr = mac := hstStart_addr ..
        rw [Db.updateDefaultHost, known_iff]
        split
        · right; right
          apply ((hashInsert_perm _ _).map Host.addr).mem_iff.2
          exact List.mem_cons.2 (.inl is.symm)
        · rw [known_iff] at known
          exact known.imp_right (Or.imp_right (mem _))

theorem removeHost_known (distinct : (db.hosts.map Host.addr).Nodup) (known : Known db)
    (found : hashFind mac db.hosts = some h) : Known (db.removeHost env h) := by
  have is := (hashFind_mem found).2
  unfold Db.removeHost
  dsimp only
  rw [known_refs]
  split
  · exact Db.recalcDefaultHost_known ..
  · case isFalse other =>
    rw [known_iff] at known ⊢
    rw [is] at other ⊢
    refine known.imp_right (Or.imp_right ?_)
    intro mem
    exact (mem_hashRemove distinct found).2 ⟨mem, other⟩

theorem removeAllBySta_known (known : Known db) : Known (db.removeAllBySta env s) := by
  obtain ⟨left, noticed⟩ := removeLoop_spec s db.defaultHost db.refs false db.hosts
  unfold Db.removeAllBySta
  dsimp only
  split
  · exact Db.recalcDefaultHost_known ..
  · case isFalse no =>
    rw [noticed] at no
    refine known.imp_right (Or.imp_right ?_)
    rintro ⟨h, mem, is⟩
    refine ⟨h, ?_, is⟩
    simp only [left, List.mem_filter, decide_not, Bool.not_eq_true', decide_eq_false_iff_not]
    refine ⟨mem, ?_⟩
    intro behind
    exact no (.inr ⟨h, mem, behind, is.symm⟩)

theorem wdsDisconnectTmr_known {toMs : UInt32 → UInt32}
    (distinct : (db.hosts.map Host.addr).Nodup) (known : Known db)
    (found : hashFind mac db.hosts = some h) : Known (db.wdsDisconnectTmr env toMs h) := by
  unfold Db.wdsDisconnectTmr
  split
  · exact removeHost_known distinct known found
  · split
    · exact known
    · split
      · exact removeHost_known distinct known found
      · exact known

theorem removeHostByAddr_known_iff (distinct : (db.hosts.map Host.addr).Nodup) (known : Known db) :
    Known (db.removeHostByAddr mac) ↔ Keeps db (.removeHostByAddr mac, env) := by
  cases found : hashFind mac db.hosts with
  | none =>
    rw [hashFind_eq_none, List.mem_map] at found
    refine iff_of_true ?_ fun has => absurd has found
    rw [← List.mem_map, ← hashFind_eq_none] at found
    simp only [Db.removeHostByAddr, found]
    exact known
  | some h =>
    have here : ∃ h ∈ db.hosts, h.addr = mac := ⟨h, hashFind_mem found⟩
    simp only [Db.removeHostByAddr, found]
    rw [known_iff]
    simp only [mem_hashRemove distinct found, Keeps]
    constructor
    · rintro (zero | own | ⟨-, ne⟩) _ is
      · exact .inl (is ▸ zero)
      · exact .inr (is ▸ own)
      · exact absurd is ne
    · intro keeps
      rcases known_iff.1 known with zero | own | mem
      · exact .inl zero
      · exact .inr (.inl own)
      · by_cases is : db.defaultHost = mac
        · rcases keeps here is with zero | own
          · exact .inl (is.trans zero)
          · exact .inr (.inl (is.trans own))
        · exact .inr (.inr ⟨mem, is⟩)

theorem step_known_iff (distinct : (db.hosts.map Host.addr).Nodup) (known : Known db) (c : Call) :
    Known (step db c) ↔ Keeps db c := by
  obtain ⟨op, env⟩ := c
  cases op with
  | updateHost mac s =>
    refine iff_of_true ?_ trivial
    simp only [step, Db.updateHost]
    split
    · exact known.of_addr (forEach_addr (hstUpdate_addr env s) ..)
    · exact addHost_known known
  | addHost mac s => exact iff_of_true (addHost_known known) trivial
  | removeHost mac =>
    refine iff_of_true ?_ trivial
    simp only [step]
    split
    · case h_1 found => exact removeHost_known distinct known found
    · exact known
  | removeHostByAddr mac => exact removeHostByAddr_known_iff distinct known
  | removeAllBySta s => exact iff_of_true (removeAllBySta_known known) trivial
  | stopAllBySta s =>
    exact iff_of_true (known.of_addr (forEach_addr hstStop_addr ..)) trivial
  | startAllBySta s =>
    exact iff_of_true (known.of_addr (forEach_addr (hstStart_addr env s) ..)) trivial
  | wdsDisconnectTmr mac toMs =>
    refine iff_of_true ?_ trivial
    simp only [step]
    split
    · case h_1 found => exact wdsDisconnectTmr_known distinct known found
    · exact known

section Addresses

theorem addHost_distinct (distinct : (db.hosts.map Host.addr).Nodup) :
    ((db.addHost env mac s).hosts.map Host.addr).Nodup := by
  unfold Db.addHost
  dsimp only
  split
  · exact distinct
  · split
    · exact distinct
    · split
      · exact distinct
      · case h_2 absent =>
        have is : (hstStart env s db.refs (hstInit mac)).2.addr = mac := hstStart_addr ..
        rw [Db.updateDefaultHost_hosts]
        apply ((hashInsert_perm _ _).map Host.addr).nodup_iff.2
        rw [List.map_cons, is]
        exact List.nodup_cons.2 ⟨hashFind_eq_none.1 absent, distinct⟩

theorem removeHost_distinct (distinct : (db.hosts.map Host.addr).Nodup) (h : Host) :
    ((db.removeHost env h).hosts.map Host.addr).Nodup := by
  rw [Db.removeHost_hosts]
  exact ((hashRemove_sublist h.addr db.hosts).map Host.addr).nodup distinct

theorem step_distinct (distinct : (db.hosts.map Host.addr).Nodup) (c : Call) :
    ((step db c).hosts.map Host.addr).Nodup := by
  obtain ⟨op, env⟩ := c
  cases op with
  | updateHost mac s =>
    simp only [step, Db.updateHost]
    split
    · rw [forEach_addr (hstUpdate_addr env s)]
      exact distinct
    · exact addHost_distinct distinct
  | addHost mac s => exact addHost_distinct distinct
  | removeHost mac =>
    simp only [step]
    split
    · exact removeHost_distinct distinct _
    · exact distinct
  | removeHostByAddr mac =>
    simp only [step, Db.removeHostByAddr]
    split
    · exact ((hashRemove_sublist mac db.hosts).map Host.addr).nodup distinct
    · exact distinct
  | removeAllBySta s =>
    have left := (removeLoop_spec s db.defaultHost db.refs false db.hosts).1
    have fewer : ((step db (.removeAllBySta s, env)).hosts).Sublist db.hosts := by
      simp only [step, Db.removeAllBySta]
      split <;> exact left ▸ List.filter_sublist
    exact (fewer.map Host.addr).nodup distinct
  | stopAllBySta s =>
    exact (forEach_addr hstStop_addr db.refs db.hosts).symm ▸ distinct
  | startAllBySta s =>
    exact (forEach_addr (hstStart_addr env s) db.refs db.hosts).symm ▸ distinct
  | wdsDisconnectTmr mac toMs =>
    simp only [step, Db.wdsDisconnectTmr]
    split
    · split
      · exact removeHost_distinct distinct _
      · split
        · exact distinct
        · split
          · exact removeHost_distinct distinct _
          · exact distinct
    · exact distinct

end Addresses

/-- In a run that never removes the default host by its address the default host is always known;
and the first operation that does leaves it unknown. -/
theorem default_host_known {localMac : Addr} {timeout : UInt32}
    (run : Runs step Keeps (Db.init localMac timeout) db) :
    Known db ∧ ∀ c, Known (step db c) ↔ Keeps db c := by
  have both : (db.hosts.map Host.addr).Nodup ∧ Known db := by
    apply run.invariant (P := fun db => (db.hosts.map Host.addr).Nodup ∧ Known db)
    · exact ⟨List.nodup_nil, .inl rfl⟩
    · rintro db c ⟨distinct, known⟩ keeps
      exact ⟨step_distinct distinct c, (step_known_iff distinct known c).2 keeps⟩
  exact ⟨both.2, step_known_iff both.1 both.2⟩

/-- Two hosts behind a station, of which the second is removed by its address and the first, the
default host, by its timer. -/
def exampleCalls : List Call :=
  [(.updateHost (fun _ => 2) ⟨0, fun _ => 4⟩, calm),
    (.updateHost (fun _ => 18) ⟨0, fun _ => 4⟩, calm), (.removeHostByAddr (fun _ => 18), calm),
    (.stopAllBySta ⟨0, fun _ => 4⟩, calm), (.wdsDisconnectTmr (fun _ => 2) id, calm)]

theorem default_host_known_of_two :
    Known (exampleCalls.foldl step (Db.init (fun _ => 6) 0)) :=
  (default_host_known (Runs.of_allowed
    (by decide : Allowed step Keeps (Db.init (fun _ => 6) 0) exampleCalls))).1

/-- The only host, the default one, is removed by its address when it connects as a station. -/
theorem removed_host_stays_default :
    Runs step (fun _ _ => True) (Db.init (fun _ => 6) 0)
        (step (step (Db.init (fun _ => 6) 0) (.updateHost (fun _ => 2) ⟨0, fun _ => 4⟩, calm))
          (.removeHostByAddr (fun _ => 2), calm)) ∧
      ¬ Known (step (step (Db.init (fun _ => 6) 0)
        (.updateHost (fun _ => 2) ⟨0, fun _ => 4⟩, calm)) (.removeHostByAddr (fun _ => 2), calm)) :=
  ⟨.step _ (.step _ .start trivial) trivial, by decide⟩

end Wave300.Hstdb
