import Wave300.Hstdb.References

/-!
# References of a host that is updated

`mtlk_hstdb_update_host` gives up the reference on the station that a host was behind, also where
the host was started twice and holds more.
-/

namespace Wave300.Recv

open Hstdb

variable {env : Env} {mac : Addr} {s : Sta} {h : Host} {r : Refs} {l : List Host} {db : Db}

/-- The start that a host with a station has done says so. -/
def Started (h : Host) : Prop := h.sta ≠ none → h.startStaRef = true

/-- One list of hosts is exchanged for another: what is owed goes with the hosts behind a
station. -/
structure Swapped (r : Refs) (l : List Host) (r' : Refs) (l' : List Host) : Prop where
  started : ∀ h ∈ l', Started h
  owed : ∀ s, r'.owed s = r.owed s - behind s l + behind s l'

theorem Swapped.refl (started : ∀ h ∈ l, Started h) : Swapped r l r l :=
  ⟨started, fun s => by omega⟩

theorem Swapped.trans {r' r'' : Refs} {l' l'' : List Host} (first : Swapped r l r' l')
    (second : Swapped r' l' r'' l'') : Swapped r l r'' l'' := by
  refine ⟨second.started, ?_⟩
  intro s
  have one := first.owed s
  have two := second.owed s
  omega

theorem behind_append (s : Sta) (l l' : List Host) :
    behind s (l ++ l') = behind s l + behind s l' := List.countP_append

/-- The host is stopped if it has a station, and started with another. -/
theorem hstStart_swapped (env : Env) (s : Sta) (r : Refs) (none : h.sta = none) :
    Swapped r [h] (hstStart env s r h).1 [(hstStart env s r h).2] := by
  cases set : env.timerSet h.addr with
  | true =>
    simp only [hstStart, set, if_true]
    refine ⟨by simp [Started], ?_⟩
    intro x
    simp only [Refs.owed_incref, behind_cons, behind_nil, none, Option.some.injEq, reduceCtorEq,
      if_false]
    split <;> omega
  | false =>
    simp only [hstStart, set, Bool.false_eq_true, if_false, hstStop]
    refine ⟨by simp [Started], ?_⟩
    intro x
    simp only [Refs.owed_incref, Refs.owed_decref, behind_cons, behind_nil, none, reduceCtorEq,
      if_false]
    omega

theorem hstUpdate_swapped (env : Env) (s : Sta) (r : Refs) (started : Started h) :
    Swapped r [h] (hstUpdate env s r h).1 [(hstUpdate env s r h).2] := by
  by_cases same : h.sta = some s
  · simp only [hstUpdate, if_pos same]
    exact ⟨by simpa [Started] using started, fun x => by simp [behind_cons, behind_nil]⟩
  cases has : h.sta with
  | none =>
    have update : hstUpdate env s r h = hstStart env s r h := by simp [hstUpdate, has]
    rw [update]
    exact hstStart_swapped env s r has
  | some s' =>
    have flag := started (by simp [has])
    have update : hstUpdate env s r h = hstStart env s (hstStop r h).1 (hstStop r h).2 := by
      simp [hstUpdate, has, has ▸ same]
    have swapped := hstStart_swapped env s (hstStop r h).1 (h := (hstStop r h).2) rfl
    rw [update]
    refine ⟨swapped.started, ?_⟩
    intro x
    have owed := swapped.owed x
    have stopped : (hstStop r h).1 = r.decref s' := by simp [hstStop, flag, has]
    have none : (hstStop r h).2.sta = none := rfl
    rw [owed, stopped, Refs.owed_decref]
    simp only [behind_cons, behind_nil, has, none, Option.some.injEq, reduceCtorEq, if_false]
    split <;> omega

theorem forEach_swapped {p : Host → Bool} {f : Refs → Host → Refs × Host}
    (started : ∀ h ∈ l, Started h)
    (each : ∀ r h, Started h → Swapped r [h] (f r h).1 [(f r h).2]) (r : Refs) :
    Swapped r l (forEach p f r l).1 (forEach p f r l).2 := by
  induction l generalizing r with
  | nil => exact .refl started
  | cons h l ih =>
    have here := started h List.mem_cons_self
    have first : Swapped r [h] (if p h then f r h else (r, h)).1
        [(if p h then f r h else (r, h)).2] := by
      split
      · exact each r h here
      · exact .refl (by simpa using here)
    have rest := ih (fun x mem => started x (.tail h mem)) (if p h then f r h else (r, h)).1
    simp only [forEach]
    constructor
    case started =>
      intro x mem
      obtain rfl | later := List.mem_cons.1 mem
      · exact first.started _ List.mem_cons_self
      · exact rest.started x later
    case owed =>
      intro x
      have one := first.owed x
      have two := rest.owed x
      simp only [behind_cons, behind_nil] at one ⊢
      omega

/-- A host that is new is beside those known. -/
theorem addHost_beside (env : Env) (s : Sta) (unknown : hashFind mac db.hosts = none) :
    (db.addHost env mac s).refs = ({ db with hosts := [] }.addHost env mac s).refs ∧
      (db.addHost env mac s).hosts.Perm
        (({ db with hosts := [] }.addHost env mac s).hosts ++ db.hosts) := by
  unfold Db.addHost
  split
  · exact ⟨rfl, .refl _⟩
  simp only
  split
  · exact ⟨rfl, .refl _⟩
  rw [unknown]
  simp only [hashFind, List.find?_nil, Db.updateDefaultHost_hosts, Db.updateDefaultHost_refs]
  exact ⟨trivial, hashInsert_perm _ _⟩

/-- The references go with the hosts. -/
theorem updateHost_swapped (env : Env) (mac : Addr) (s : Sta) (db : Db)
    (started : ∀ h ∈ db.hosts, Started h) :
    Swapped db.refs db.hosts (db.updateHost env mac s).refs (db.updateHost env mac s).hosts := by
  cases known : hashFind mac db.hosts with
  | some h =>
    simp only [Db.updateHost, known]
    exact forEach_swapped started (fun r h started => hstUpdate_swapped env s r started) db.refs
  | none =>
    have added : Exchange db.refs [] ({ db with hosts := [] }.addHost env mac s).refs
        ({ db with hosts := [] }.addHost env mac s).hosts :=
      @addHost_exchange { db with hosts := [] } env mac s fun h mem => absurd mem List.not_mem_nil
    obtain ⟨refs, hosts⟩ := addHost_beside env s known
    simp only [Db.updateHost, known]
    constructor
    case started =>
      intro h mem
      obtain new | old := List.mem_append.1 (hosts.mem_iff.1 mem)
      · exact (added.sound h new).started
      · exact started h old
    case owed =>
      intro x
      have owed := added.owed x
      rw [refs, owed, behind_perm x hosts, behind_append, behind_nil]
      push_cast
      omega

end Wave300.Recv
