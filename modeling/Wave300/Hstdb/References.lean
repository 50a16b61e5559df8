import Wave300.Hstdb.Default

/-!
# References on stations

A host with a station holds one reference on it. What a call does to a host is told by what the
hosts owe: the references taken and not released go with the stations the hosts have. Starting a
host that has a station is the exception, since the start forgets that it has one.
-/

namespace Wave300.Hstdb

open Lib

/-- A host with a station holds one reference on it, a host with none holds none; and the references
hosts took on a station and did not release are those of the hosts behind it. -/
def Exact (db : Db) : Prop :=
  (∀ h ∈ db.hosts, h.held = h.sta.toList) ∧
    ∀ s, db.refs.taken s = db.refs.released s + db.hosts.countP fun h => h.sta = some s

/-- A station for which hosts are started is remembered by hosts without a station only. -/
def Unmatched (db : Db) : Call → Prop
  | (.startAllBySta s, _) => ∀ h ∈ db.hosts, h.staAddr = s.addr → h.sta = none
  | _ => True

instance {db : Db} : DecidablePred (Unmatched db)
  | (.startAllBySta _, _) => inferInstanceAs (Decidable (∀ h ∈ _, _ → _))
  | (.updateHost .., _) | (.addHost .., _) | (.removeHost _, _) | (.removeHostByAddr _, _)
  | (.removeAllBySta _, _) | (.stopAllBySta _, _) | (.wdsDisconnectTmr .., _) => .isTrue trivial

/-- The references on a station that were taken and not released. -/
def Refs.owed (r : Refs) (s : Sta) : Int :=
  r.taken s - r.released s

/-- How many hosts of a list are behind a station. -/
def behind (s : Sta) (l : List Host) : Nat :=
  l.countP fun h => h.sta = some s

/-- What a host holds is what it has a station for, and the start it has done says so. -/
structure Sound (h : Host) : Prop where
  held : h.held = h.sta.toList
  started : h.sta ≠ none → h.startStaRef = true

/-- One list of hosts is exchanged for another, and the references with it. -/
structure Exchange (r : Refs) (l : List Host) (r' : Refs) (l' : List Host) : Prop where
  sound : ∀ h ∈ l', Sound h
  owed : ∀ s, r'.owed s = r.owed s - behind s l + behind s l'

variable {db : Db} {env : Env} {mac : Addr} {s : Sta} {h : Host} {r r' r'' : Refs}
  {l l' l'' : List Host}

namespace Refs

theorem owed_incref (r : Refs) (s x : Sta) :
    (r.incref s).owed x = r.owed x + if s = x then 1 else 0 := by
  simp only [owed, incref]
  by_cases same : s = x
  · subst same
    rw [if_pos rfl, Function.update_self]
    omega
  · rw [if_neg same, Function.update_of_ne (Ne.symm same)]
    omega

theorem owed_decref (r : Refs) (s x : Sta) :
    (r.decref s).owed x = r.owed x - if s = x then 1 else 0 := by
  simp only [owed, decref]
  by_cases same : s = x
  · subst same
    rw [if_pos rfl, Function.update_self]
    omega
  · rw [if_neg same, Function.update_of_ne (Ne.symm same)]
    omega

end Refs

theorem behind_nil (s : Sta) : behind s [] = 0 :=
  rfl

theorem behind_cons (s : Sta) (h : Host) (l : List Host) :
    behind s (h :: l) = behind s l + if h.sta = some s then 1 else 0 := by
  rw [behind, List.countP_cons]
  simp only [decide_eq_true_eq]
  rfl

theorem behind_perm (s : Sta) (perm : l.Perm l') : behind s l = behind s l' :=
  perm.countP_eq _

namespace Exchange

theorem refl (sound : ∀ h ∈ l, Sound h) : Exchange r l r l :=
  ⟨sound, fun s => by omega⟩

theorem trans (first : Exchange r l r' l') (second : Exchange r' l' r'' l'') :
    Exchange r l r'' l'' := by
  refine ⟨second.sound, ?_⟩
  intro s
  have := first.owed s
  have := second.owed s
  omega

/-- Hosts beside those exchanged stay as they are. -/
theorem append (first : Exchange r [h] r' l) (second : Exchange r' l' r'' l'') :
    Exchange r (h :: l') r'' (l ++ l'') := by
  constructor
  case sound =>
    intro x mem
    rcases List.mem_append.1 mem with mem | mem
    · exact first.sound x mem
    · exact second.sound x mem
  case owed =>
    intro s
    have one := first.owed s
    have two := second.owed s
    have all : behind s (l ++ l'') = behind s l + behind s l'' := List.countP_append
    rw [behind_cons, behind_nil] at one
    rw [behind_cons, all]
    omega

theorem perm (h : Exchange r l r' l') (before : l.Perm l'') : Exchange r l'' r' l' := by
  refine ⟨h.sound, ?_⟩
  intro s
  rw [← behind_perm s before]
  exact h.owed s

end Exchange

section Host

/-- A host that is stopped gives back its reference. -/
theorem hstStop_exchange (r : Refs) (sound : Sound h) (has : h.sta = some s) :
    Exchange r [h] (hstStop r h).1 [(hstStop r h).2] ∧ (hstStop r h).2.sta = none := by
  have started := sound.started (by simp [has])
  have held : h.held = [s] := by rw [sound.held, has, Option.toList_some]
  have stopped : hstStop r h = (r.decref s, { h with
      held := [], sta := none, startStaRef := false, startWdsTimer := false }) := by
    simp [hstStop, started, has, held]
  rw [stopped]
  refine ⟨⟨?_, ?_⟩, rfl⟩
  · intro x mem
    rw [List.mem_singleton.1 mem]
    exact ⟨rfl, fun ne => absurd rfl ne⟩
  · intro x
    simp only [behind_cons, behind_nil, has, Refs.owed_decref, Option.some.injEq, reduceCtorEq,
      if_false]
    split <;> omega

/-- A host without a station that is started takes one reference, or none when its timer fails. -/
theorem hstStart_exchange (env : Env) (s : Sta) (r : Refs) (sound : Sound h) (has : h.sta = none) :
    Exchange r [h] (hstStart env s r h).1 [(hstStart env s r h).2] := by
  have held : h.held = [] := by rw [sound.held, has, Option.toList_none]
  have started : Exchange r [h] (r.incref s) [{ h with
      timestamp := env.timestamp h.addr, sta := some s, staAddr := s.addr, startStaRef := true,
      startWdsTimer := env.timerSet h.addr, held := s :: h.held }] := by
    constructor
    · intro x mem
      rw [List.mem_singleton.1 mem, held]
      exact ⟨rfl, fun _ => rfl⟩
    · intro x
      simp only [behind_cons, behind_nil, has, Refs.owed_incref, Option.some.injEq, reduceCtorEq,
        if_false]
      split <;> omega
  unfold hstStart
  dsimp only
  split
  · exact started
  · exact started.trans (hstStop_exchange _ (started.sound _ List.mem_cons_self) rfl).1

theorem hstUpdate_exchange (env : Env) (s : Sta) (r : Refs) (sound : Sound h) :
    Exchange r [h] (hstUpdate env s r h).1 [(hstUpdate env s r h).2] := by
  unfold hstUpdate
  dsimp only
  split
  · refine ⟨?_, ?_⟩
    · intro x mem
      rw [List.mem_singleton.1 mem]
      exact ⟨sound.held, sound.started⟩
    · intro x
      simp only [behind_cons, behind_nil]
      omega
  · split
    · case isTrue some =>
      obtain ⟨s', has⟩ := Option.isSome_iff_exists.1 some
      obtain ⟨stopped, none⟩ := hstStop_exchange r sound has
      exact stopped.trans (hstStart_exchange env s _ (stopped.sound _ List.mem_cons_self) none)
    · case isFalse none =>
      exact hstStart_exchange env s r sound (by simpa using none)

/-- A host that is freed holds nothing any more. -/
theorem freeHost_exchange (r : Refs) (sound : Sound h) : Exchange r [h] (Db.freeHost r h) [] := by
  refine ⟨fun x mem => absurd mem List.not_mem_nil, ?_⟩
  intro x
  unfold Db.freeHost
  cases has : h.sta with
  | none => simp [behind_cons, behind_nil, has]
  | some s =>
    obtain ⟨stopped, none⟩ := hstStop_exchange r sound has
    have owed := stopped.owed x
    simp only [behind_cons, behind_nil, none, reduceCtorEq, if_false] at owed ⊢
    simp only [Option.isSome_some, if_true]
    omega

end Host

section Database

theorem forEach_exchange {p : Host → Bool} {f : Refs → Host → Refs × Host}
    (sound : ∀ h ∈ l, Sound h)
    (each : ∀ r, ∀ h ∈ l, p h = true → Exchange r [h] (f r h).1 [(f r h).2]) (r : Refs) :
    Exchange r l (forEach p f r l).1 (forEach p f r l).2 := by
  induction l generalizing r with
  | nil => exact .refl sound
  | cons h l ih =>
    have first : Exchange r [h] (if p h then f r h else (r, h)).1
        [(if p h then f r h else (r, h)).2] := by
      split
      · case isTrue chosen => exact each r h List.mem_cons_self chosen
      · exact .refl fun x mem => List.mem_singleton.1 mem ▸ sound h List.mem_cons_self
    have rest := ih (fun x mem => sound x (List.mem_cons_of_mem _ mem))
      (fun r x mem => each r x (List.mem_cons_of_mem _ mem)) (if p h then f r h else (r, h)).1
    exact first.append rest

theorem hashRemove_perm (found : hashFind mac l = some h) : l.Perm (h :: hashRemove mac l) := by
  induction l with
  | nil => cases found
  | cons x l ih =>
    by_cases here : x.addr = mac
    · rw [hashFind, List.find?_cons_of_pos (by simpa using here)] at found
      obtain rfl := Option.some.inj found
      rw [hashRemove, List.eraseP_cons_of_pos (by simpa using here)]
    · rw [hashFind, List.find?_cons_of_neg (by simpa using here)] at found
      rw [hashRemove, List.eraseP_cons_of_neg (by simpa using here)]
      exact ((ih found).cons x).trans (.swap ..)

/-- A host found under its address is taken out and freed. -/
theorem remove_exchange (sound : ∀ h ∈ l, Sound h) (found : hashFind mac l = some h) (r : Refs) :
    Exchange r l (Db.freeHost r h) (hashRemove mac l) := by
  have others : ∀ x ∈ hashRemove mac l, Sound x := by
    intro x mem
    exact sound x ((hashRemove_sublist mac l).subset mem)
  have freed := freeHost_exchange r (sound h (hashFind_mem found).1)
  exact (freed.append (.refl others)).perm (hashRemove_perm found).symm

theorem removeLoop_exchange (sound : ∀ h ∈ l, Sound h) (s : Sta) (d : Addr) (r : Refs) (b : Bool) :
    Exchange r l (Db.removeLoop s d r b l).1 (Db.removeLoop s d r b l).2.2 := by
  induction l generalizing r b with
  | nil => exact .refl sound
  | cons h l ih =>
    have rest := fun r b => ih (fun x mem => sound x (List.mem_cons_of_mem _ mem)) r b
    rw [Db.removeLoop]
    split
    · exact (freeHost_exchange r (sound h List.mem_cons_self)).append (rest _ _)
    · exact (Exchange.refl fun x mem => List.mem_singleton.1 mem ▸
        sound h List.mem_cons_self).append (rest r b)

theorem sound_hstInit (mac : Addr) : Sound (hstInit mac) :=
  ⟨rfl, fun ne => absurd rfl ne⟩

theorem addHost_exchange (sound : ∀ h ∈ db.hosts, Sound h) :
    Exchange db.refs db.hosts (db.addHost env mac s).refs (db.addHost env mac s).hosts := by
  have started := hstStart_exchange env s db.refs (sound_hstInit mac) rfl
  -- A host that is not put into the database is there for nobody to see.
  have unseen : ∀ {r' : Refs}, (∀ x, r'.owed x = db.refs.owed x) →
      Exchange db.refs db.hosts r' db.hosts := fun same => ⟨sound, fun x => by rw [same]; omega⟩
  have fresh : ∀ x, behind x [hstInit mac] = 0 := fun _ => rfl
  unfold Db.addHost
  dsimp only
  split
  · exact .refl sound
  · split
    · case isTrue failed =>
      apply unseen
      intro x
      have owed := started.owed x
      have none : (hstStart env s db.refs (hstInit mac)).2.sta = none := by
        have fails : env.timerSet (hstInit mac).addr = false := failed
        simp only [hstStart, fails]
        rfl
      rw [fresh, behind_cons, behind_nil, none, if_neg nofun] at owed
      exact owed.trans (by omega)
    · case isFalse set =>
      have has : (hstStart env s db.refs (hstInit mac)).2.sta = some s := by
        have works : env.timerSet (hstInit mac).addr = true := eq_true_of_ne_false set
        simp only [hstStart, works]
        rfl
      split
      · apply unseen
        intro x
        obtain ⟨stopped, none⟩ := hstStop_exchange (hstStart env s db.refs (hstInit mac)).1
          (started.sound _ List.mem_cons_self) has
        have owed := (started.trans stopped).owed x
        rw [fresh, behind_cons, behind_nil, none, if_neg nofun] at owed
        exact owed.trans (by omega)
      · rw [Db.updateDefaultHost_hosts, Db.updateDefaultHost_refs]
        constructor
        · intro x mem
          rcases List.mem_cons.1 ((hashInsert_perm _ _).mem_iff.1 mem) with rfl | mem
          · exact started.sound _ List.mem_cons_self
          · exact sound x mem
        · intro x
          have owed := started.owed x
          rw [behind_perm x (hashInsert_perm _ _), behind_cons]
          rw [fresh, behind_cons, behind_nil] at owed
          simp only
          omega

theorem removeHost_exchange (sound : ∀ h ∈ db.hosts, Sound h)
    (found : hashFind mac db.hosts = some h) :
    Exchange db.refs db.hosts (db.removeHost env h).refs (db.removeHost env h).hosts := by
  rw [Db.removeHost_hosts, (hashFind_mem found).2]
  exact remove_exchange sound found db.refs

theorem step_exchange (sound : ∀ h ∈ db.hosts, Sound h) {c : Call} (unmatched : Unmatched db c) :
    Exchange db.refs db.hosts (step db c).refs (step db c).hosts := by
  obtain ⟨op, env⟩ := c
  cases op with
  | updateHost mac s =>
    simp only [step, Db.updateHost]
    split
    · exact forEach_exchange sound (fun r h mem _ => hstUpdate_exchange env s r (sound h mem)) _
    · exact addHost_exchange sound
  | addHost mac s => exact addHost_exchange sound
  | removeHost mac =>
    simp only [step]
    split
    · case h_1 found => exact removeHost_exchange sound found
    · exact .refl sound
  | removeHostByAddr mac =>
    simp only [step, Db.removeHostByAddr]
    split
    · case h_1 found => exact remove_exchange sound found _
    · exact .refl sound
  | removeAllBySta s =>
    simp only [step, Db.removeAllBySta]
    split <;> exact removeLoop_exchange sound s db.defaultHost db.refs false
  | stopAllBySta s =>
    apply forEach_exchange sound
    intro r h mem here
    exact (hstStop_exchange r (sound h mem) (of_decide_eq_true here)).1
  | startAllBySta s =>
    apply forEach_exchange sound
    intro r h mem here
    exact hstStart_exchange env s r (sound h mem) (unmatched h mem (of_decide_eq_true here))
  | wdsDisconnectTmr mac toMs =>
    simp only [step, Db.wdsDisconnectTmr]
    split
    · case h_1 found =>
      split
      · exact removeHost_exchange sound found
      · split
        · exact .refl sound
        · split
          · exact removeHost_exchange sound found
          · exact .refl sound
    · exact .refl sound

end Database

/-- What the hosts hold, and that what is owed is what they hold. -/
structure Settled (db : Db) : Prop where
  sound : ∀ h ∈ db.hosts, Sound h
  owed : ∀ s, db.refs.owed s = behind s db.hosts

theorem Settled.exact (h : Settled db) : Exact db := by
  refine ⟨fun x mem => (h.sound x mem).held, ?_⟩
  intro s
  have owed := h.owed s
  unfold Refs.owed behind at owed
  omega

theorem Settled.step (h : Settled db) {c : Call} (unmatched : Unmatched db c) :
    Settled (step db c) := by
  have exchange := step_exchange h.sound unmatched
  refine ⟨exchange.sound, ?_⟩
  intro s
  rw [exchange.owed, h.owed]
  omega

/-- A host that has a station and is started all the same holds more than one reference, or one
for no station. -/
theorem hstStart_not_exact (env : Env) (s : Sta) (r : Refs) (sound : Sound h) (has : h.sta ≠ none) :
    (hstStart env s r h).2.held ≠ (hstStart env s r h).2.sta.toList := by
  obtain ⟨s', is⟩ := Option.ne_none_iff_exists'.1 has
  have held : h.held = [s'] := by rw [sound.held, is, Option.toList_some]
  unfold hstStart
  dsimp only
  split
  · rw [held, Option.toList_some]
    intro eq
    cases (List.cons.inj eq).2
  · simp [hstStop, held]

theorem forEach_mem {p : Host → Bool} {f : Refs → Host → Refs × Host} (mem : h ∈ l)
    (here : p h = true) (r : Refs) : ∃ r', (f r' h).2 ∈ (forEach p f r l).2 := by
  induction l generalizing r with
  | nil => cases mem
  | cons x l ih =>
    rcases List.mem_cons.1 mem with rfl | mem
    · refine ⟨r, ?_⟩
      simp only [forEach, here, if_true]
      exact List.mem_cons_self
    · obtain ⟨r', mem⟩ := ih mem (if p x then f r x else (r, x)).1
      exact ⟨r', List.mem_cons_of_mem _ mem⟩

theorem Settled.unmatched (h : Settled db) {c : Call} (exact : Exact (Hstdb.step db c)) :
    Unmatched db c := by
  obtain ⟨op, env⟩ := c
  cases op with
  | startAllBySta s =>
    intro x mem remembers
    by_contra has
    obtain ⟨r, started⟩ := forEach_mem (p := fun h => h.staAddr = s.addr) (f := hstStart env s) mem
      (decide_eq_true remembers) db.refs
    exact hstStart_not_exact env s r (h.sound x mem) has (exact.1 _ started)
  | _ => trivial

/-- In a run that starts hosts for a station only where those that remember its address have no
station, every host holds what it should and every reference is accounted for; and the first
operation that does otherwise ends this. -/
theorem references_exact {localMac : Addr} {timeout : UInt32}
    (run : Runs step Unmatched (Db.init localMac timeout) db) :
    Exact db ∧ ∀ c, Exact (step db c) ↔ Unmatched db c := by
  have settled : Settled db := by
    apply run.invariant (P := Settled)
    · exact ⟨fun x mem => absurd mem List.not_mem_nil, fun _ => rfl⟩
    · intro db c settled unmatched
      exact settled.step unmatched
  exact ⟨settled.exact, fun c => ⟨settled.unmatched, fun ok => (settled.step ok).exact⟩⟩

/-- A host is known behind a station, which disconnects and connects again as another entry. -/
def reconnectCalls : List Call :=
  [(.updateHost (fun _ => 2) ⟨0, fun _ => 4⟩, calm), (.stopAllBySta ⟨0, fun _ => 4⟩, calm),
    (.startAllBySta ⟨1, fun _ => 4⟩, calm), (.removeHostByAddr (fun _ => 4), calm)]

theorem references_exact_of_reconnect :
    Exact (reconnectCalls.foldl step (Db.init (fun _ => 6) 0)) :=
  (references_exact (Runs.of_allowed
    (by decide : Allowed step Unmatched (Db.init (fun _ => 6) 0) reconnectCalls))).1

/-- A frame of a host is received after its station was added, and before the hosts that remember
the station are started: the host is started twice, and the station is released once. -/
theorem reference_taken_twice :
    Runs step (fun _ _ => True) (Db.init (fun _ => 6) 0)
        (step (step (Db.init (fun _ => 6) 0) (.updateHost (fun _ => 2) ⟨0, fun _ => 4⟩, calm))
          (.startAllBySta ⟨0, fun _ => 4⟩, calm)) ∧
      ¬ Exact (step (step (Db.init (fun _ => 6) 0)
        (.updateHost (fun _ => 2) ⟨0, fun _ => 4⟩, calm))
          (.startAllBySta ⟨0, fun _ => 4⟩, calm)) := by
  refine ⟨.step _ (.step _ .start trivial) trivial, ?_⟩
  rintro ⟨held, -⟩
  exact absurd held (by decide)

end Wave300.Hstdb
