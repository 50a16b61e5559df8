import Wave300.Recv.Frame
import Wave300.Recv.Hosts
import Wave300.Recv.Spending

/-!
# References over a received frame

Every reference taken for a frame is one of a buffer in a queue or of a host, but for two cases: a
frame of an own host that comes back to a station, and an A-MSDU with nothing but padding at its
end.
-/

namespace Wave300.Recv

open Hstdb (Sta Addr Refs behind)
open Rod (Bookkept)
open Rx (Buf Parse Chain Linked clones chain_all walk parse_outcome mtlkParseAMsdu)

variable {env : Nat → Answers} {c : Core} {f : Frame} {b : Nbuf} {w w' w'' : World}
  {cost cost' : Sta → Int}

/-- What holds of a world between frames: the hosts with a station were started, the queues in use
keep their books, and the stations found are entries. -/
structure World.Sound (w : World) : Prop where
  hosts : ∀ h ∈ w.db.hosts, Started h
  ordered : w.Ordered
  known : ∀ mac s, w.stadb mac = some s → s ∈ w.stas

/-- The references on a station. -/
def World.count (w : World) (s : Sta) : Int :=
  w.finds.owed s + w.packets.owed s + w.db.refs.owed s

/-- The references that look-ups returned were released, and otherwise the references on a station
change with the buffers in the queues and with the hosts. -/
structure Conserved (w w' : World) : Prop where
  finds : ∀ s, w'.finds.owed s = w.finds.owed s
  count : ∀ s, w'.count s - w.count s =
    (w'.owned s - w.owned s) + ((behind s w'.db.hosts : Int) - behind s w.db.hosts)

/-- The frame is processed up to its Ethernet header. -/
def Carried (f : Frame) (w : World) (s : Sta) : Prop := w.stadb f.addr2 = some s ∧ f.nullPkt = false

/-- A station in WDS mode hears a frame of a host that it knows behind a station. -/
def OwnHost (c : Core) (f : Frame) (w : World) : Prop :=
  f.aMsdu = false ∧ c.bridgeMode = .wds ∧ c.isAp = false ∧ (w.hostSta f.hSource).isSome = true ∧
    ∃ s, Carried f w s ∧ f.hSource ≠ s.addr

/-- An A-MSDU with subframes, and with nothing left behind the padding of the last one. -/
def Padded (f : Frame) (w : World) : Prop :=
  f.aMsdu = true ∧ (walk f.alloc f.bytes f.len (f.len + 2) 0 0).2 = .padded ∧
    (walk f.alloc f.bytes f.len (f.len + 2) 0 0).1 ≠ [] ∧ ∃ s, Carried f w s

section Analysis

theorem spends_lost_found (s : Sta) (h : Spends (w.found s) w' cost) :
    Spends w (w'.lost s) cost := by
  refine ⟨h.due, h.ordered, h.stadb, h.db, h.stas, ?_⟩
  intro x
  have found := h.finds x
  simp only [World.found, Refs.owed_incref] at found
  simp only [World.lost, Refs.owed_decref, found]
  omega

theorem spends_setDstSta (s : Sta) (unset : b.dst = none) (w : World) :
    Spends w (w.setDstSta s b).1 (fun x => b.owns x - (w.setDstSta s b).2.owns x) ∧
      (w.setDstSta s b).2.src = b.src := by
  unfold World.setDstSta
  split
  · exact ⟨(Spends.refl w).trans (.refl w) (by simp), rfl⟩
  · refine ⟨(spends_incref (some s) w).trans (.refl _) ?_, rfl⟩
    intro x
    simp only [Nbuf.owns, unset, reduceCtorEq, if_false, Option.some.injEq]
    omega

/-- What a buffer owns more after `analyze_rx_packet`, it took. -/
theorem spends_analyze (c : Core) (hDest : Addr) (unset : b.dst = none) (w : World) :
    Spends w (w.analyzeRxPacket c hDest b).1
      (fun x => b.owns x - (w.analyzeRxPacket c hDest b).2.owns x) ∧
      (w.analyzeRxPacket c hDest b).2.src = b.src := by
  have kept (b' : Nbuf) (src : b'.src = b.src) (dst : b'.dst = b.dst) :
      Spends w w (fun x => b.owns x - b'.owns x) ∧ b'.src = b.src := by
    refine ⟨(Spends.refl w).trans (.refl w) ?_, src⟩
    intro x
    simp only [Nbuf.owns, src, dst]
    omega
  unfold World.analyzeRxPacket
  simp only
  split
  · exact kept _ rfl rfl
  split
  · exact kept _ rfl rfl
  split
  · exact kept _ rfl rfl
  split
  · split
    next s _ =>
      obtain ⟨set, src⟩ := spends_setDstSta (b := { b with
        consume := b.consume || c.promiscuous, unicast := true }) s unset (w.found s)
      exact ⟨spends_lost_found s set, src⟩
    · exact kept _ rfl rfl
  · exact kept _ rfl rfl

theorem spends_makeClones (c : Core) (f : Frame) (b : Nbuf) (k : Nat) (w : World) :
    Spends w (w.makeClones c f b k).1 (fun x => - ownsAll (w.makeClones c f b k).2 x) ∧
      (w.makeClones c f b k).2.length = k := by
  induction k with
  | zero => exact ⟨.refl w, rfl⟩
  | succ k ih =>
    obtain ⟨before, length⟩ := ih
    obtain ⟨last, -⟩ := spends_analyze (b := { b with dst := none }) c (f.subDest k) rfl
      ((w.makeClones c f b k).1.incref b.src)
    simp only [World.makeClones]
    constructor
    · refine (before.trans (spends_incref b.src _) fun _ => rfl).trans last ?_
      intro x
      simp only [ownsAll_append, ownsAll_cons, ownsAll_nil]
      simp only [Nbuf.owns, reduceCtorEq, if_false]
      omega
    · simp [length]

end Analysis

section Parse

theorem subFrames_chain {sub : Buf → Option Buf} {x : Buf} {l : List Buf} (fuel : Nat)
    (h : Chain sub x l) (enough : l.length ≤ fuel + 1) : subFrames sub fuel x = l := by
  induction h generalizing fuel with
  | last none =>
    cases fuel with
    | zero => rfl
    | succ fuel => simp only [subFrames, none]
  | @next x y l follows _ ih =>
    cases fuel with
    | zero =>
      cases ‹Chain sub y l› <;> simp at enough
    | succ fuel => simp only [subFrames, follows, ih fuel (by simpa using enough)]

theorem map_clones (b : Nbuf) (made : List Nbuf) :
    (clones made.length).map (nbufOf b made) = made := by
  refine List.ext_getElem (by simp [clones]) ?_
  intro i _ below
  simp [clones, nbufOf, below]

/-- The chain that is left, whatever the division of the body: behind padding the buffer itself is
in no chain. -/
theorem parseAMsdu_eq (c : Core) (f : Frame) (b : Nbuf) (w : World) :
    ∃ k, let u := w.makeClones c f b k
      let split := walk f.alloc f.bytes f.len (f.len + 2) 0 0
      (split.2 = .padded → split.1 = [] → k = 0) ∧ w.parseAMsdu c f b =
        if split.2 = .exact then
          let v := u.1.analyzeRxPacket c (f.subDest k) b
          (v.1, u.2 ++ [v.2], true)
        else if split.2 = .refused then (u.1, b :: u.2, false)
        else (u.1, if split.1 = [] then [b] else u.2, true) := by
  obtain ⟨t, ok, result, outcome⟩ := parse_outcome f.alloc f.bytes f.len
  refine ⟨t.clones.length, ?_⟩
  have length := (spends_makeClones c f b t.clones.length w).2
  generalize walk f.alloc f.bytes f.len (f.len + 2) 0 0 = split at outcome ⊢
  obtain ⟨frames, ending⟩ := split
  simp only [World.parseAMsdu, result]
  generalize w.makeClones c f b t.clones.length = u at length ⊢
  obtain ⟨u, made⟩ := u
  have all (x : Nbuf) : (clones t.clones.length).map (nbufOf x made) = made := by
    rw [← length]
    exact map_clones x made
  cases ending with
  | exact =>
    have accepted : ok = true := outcome.ok.2 (by simp)
    have taken : t.subNbufStored = some .original := outcome.taken.2 rfl
    have chain := subFrames_chain t.clones.length (outcome.accepted rfl) (by simp [clones])
    simp only [accepted, taken, if_true, chain, List.map_append, all]
    exact ⟨(by rintro ⟨⟩), rfl⟩
  | padded =>
    have accepted : ok = true := outcome.ok.2 (by simp)
    have taken : t.subNbufStored ≠ some .original := fun taken => by cases outcome.taken.1 taken
    obtain ⟨linked, count⟩ := outcome.padded rfl
    have count : frames.length = t.clones.length := by simpa [Parse.begin] using count
    simp only [accepted, taken, if_true, if_false, reduceCtorEq]
    refine ⟨fun _ none => by simp [← count, none], ?_⟩
    by_cases none : frames = []
    · have none' : t.clones.length = 0 := by simp [← count, none]
      have first : t.subNbufFirst = .original := by rw [linked.first, if_pos none']
      rw [if_pos none, first, subFrames_chain _ (.last linked.original) (by simp)]
      rfl
    · have some_ : 0 < t.clones.length := by
        rw [← count]
        exact List.length_pos_iff.2 none
      have first : t.subNbufFirst = .clone 0 := by rw [linked.first, if_neg some_.ne']
      have chain := chain_all t.subFrame Option.none linked.clone (l := []) rfl some_
      rw [if_neg none, first, subFrames_chain _ chain (by simp [clones]), List.append_nil, all]
  | refused =>
    have failed : ok = false := by
      cases ok with
      | false => rfl
      | true => exact absurd rfl (outcome.ok.1 rfl)
    have taken : t.subNbufStored ≠ some .original := fun taken => by cases outcome.taken.1 taken
    have chain := subFrames_chain t.clones.length (outcome.refused rfl) (by simp [clones])
    simp only [failed, taken, Bool.false_eq_true, if_true, if_false, reduceCtorEq, chain,
      List.map_cons, all]
    exact ⟨(by rintro ⟨⟩), rfl⟩

/-- What is left to be paid for an A-MSDU is the chain, and behind padding the buffer too. -/
theorem spends_parse (c : Core) (f : Frame) (unset : b.dst = none) (w : World) :
    Spends w (w.parseAMsdu c f b).1 fun x => b.owns x - ownsAll (w.parseAMsdu c f b).2.1 x -
      if (walk f.alloc f.bytes f.len (f.len + 2) 0 0).2 = .padded ∧
        (walk f.alloc f.bytes f.len (f.len + 2) 0 0).1 ≠ [] then b.owns x else 0 := by
  obtain ⟨k, none, parsed⟩ := parseAMsdu_eq c f b w
  have made := (spends_makeClones c f b k w).1
  rw [parsed]
  generalize walk f.alloc f.bytes f.len (f.len + 2) 0 0 = split at none ⊢
  obtain ⟨frames, ending⟩ := split
  cases ending with
  | exact =>
    simp only [if_true, reduceCtorEq, false_and, if_false]
    refine made.trans (spends_analyze c (f.subDest k) unset _).1 ?_
    intro x
    simp only [ownsAll_append, ownsAll_cons, ownsAll_nil]
    omega
  | refused =>
    simp only [if_true, reduceCtorEq, false_and, if_false]
    refine made.trans (.refl _) ?_
    intro x
    simp only [ownsAll_cons]
    omega
  | padded =>
    simp only [reduceCtorEq, true_and, if_false]
    refine made.trans (.refl _) ?_
    intro x
    by_cases empty : frames = []
    · obtain rfl := none rfl empty
      simp [empty, World.makeClones]
    · simp [empty]

end Parse

/-- From one world to another, by how much more is due to buffers and to look-ups. -/
structure Moves (w w' : World) (due finds : Sta → Int) : Prop where
  due : ∀ s, w'.due s = w.due s + due s
  finds : ∀ s, w'.finds.owed s = w.finds.owed s + finds s
  hosts : (∀ h ∈ w.db.hosts, Started h) →
    Swapped w.db.refs w.db.hosts w'.db.refs w'.db.hosts
  ordered : w.Ordered → w'.Ordered
  stadb : w'.stadb = w.stadb
  stas : w'.stas = w.stas

section Moves

variable {due due' finds finds' all found : Sta → Int}

theorem Moves.trans (h : Moves w w' due finds) (h' : Moves w' w'' due' finds')
    (sum : ∀ s, all s = due s + due' s) (sum' : ∀ s, found s = finds s + finds' s) :
    Moves w w'' all found where
  due s := by
    rw [h'.due, h.due, sum]
    omega
  finds s := by
    rw [h'.finds, h.finds, sum']
    omega
  hosts sound := (h.hosts sound).trans (h'.hosts (h.hosts sound).started)
  ordered := h'.ordered ∘ h.ordered
  stadb := h'.stadb.trans h.stadb
  stas := h'.stas.trans h.stas

theorem Spends.moves (h : Spends w w' cost) : Moves w w' (fun s => - cost s) fun _ => 0 where
  due s := by
    rw [h.due]
    omega
  finds s := by
    rw [h.finds]
    omega
  hosts sound := by
    rw [h.db]
    exact .refl sound
  ordered := h.ordered
  stadb := h.stadb
  stas := h.stas

theorem moves_found (s : Sta) (w : World) :
    Moves w (w.found s) (fun _ => 0) fun x => if s = x then 1 else 0 where
  due _ := (add_zero _).symm
  finds x := Refs.owed_incref _ s x
  hosts sound := .refl sound
  ordered := id
  stadb := rfl
  stas := rfl

theorem moves_lost (s : Sta) (w : World) :
    Moves w (w.lost s) (fun _ => 0) fun x => - if s = x then 1 else 0 where
  due _ := (add_zero _).symm
  finds x := Refs.owed_decref _ s x
  hosts sound := .refl sound
  ordered := id
  stadb := rfl
  stas := rfl

theorem moves_updateHost (hst : Hstdb.Env) (mac : Addr) (s : Sta) (w : World) :
    Moves w { w with db := w.db.updateHost hst mac s } (fun _ => 0) fun _ => 0 where
  due _ := (add_zero _).symm
  finds _ := (add_zero _).symm
  hosts started := updateHost_swapped hst mac s w.db started
  ordered := id
  stadb := rfl
  stas := rfl

theorem spends_dispatch (env : Nat → Answers) (c : Core) (f : Frame) {s : Sta} (l : List Nbuf)
    (ordered : w.Ordered) (known : s ∈ w.stas) :
    Spends w (w.dispatch env c f s l) (ownsAll l) := by
  unfold World.dispatch
  split
  · exact spends_reorderPacket env c f.now f.seq l (k := (s, f.priority)) ordered known
  · exact spends_detectReplayOrSendup env c l w

/-- The frame of an own host is the one thing that is not paid for. -/
theorem moves_checkHost (c : Core) (f : Frame) (s : Sta) (w : World) :
    (w.checkHost c f s).2 = true ∧
        Moves w (w.checkHost c f s).1 (fun _ => 0) (fun _ => 0) ∧
        ¬ (c.bridgeMode = .wds ∧ c.isAp = false ∧ (w.hostSta f.hSource).isSome = true ∧
          f.hSource ≠ s.addr) ∨
      (w.checkHost c f s).2 = false ∧
        (c.bridgeMode = .wds ∧ c.isAp = false ∧ (w.hostSta f.hSource).isSome = true ∧
          f.hSource ≠ s.addr) ∧
        ∃ s', Moves w (w.checkHost c f s).1 (fun _ => 0) fun x => if s' = x then 1 else 0 := by
  have same : Moves w w (fun _ => 0) fun _ => 0 := (Spends.refl w).moves
  unfold World.checkHost
  by_cases wds : c.bridgeMode = .wds ∧ f.hSource ≠ s.addr
  · rw [if_pos wds]
    cases ap : c.isAp with
    | true => exact .inl ⟨rfl, moves_updateHost f.hst f.hSource s w, by simp⟩
    | false =>
      simp only [Bool.false_eq_true, if_false]
      cases host : w.hostSta f.hSource with
      | none => exact .inl ⟨rfl, same, by simp⟩
      | some s' => exact .inr ⟨rfl, by simp [wds.1, wds.2], s', moves_found s' w⟩
  · rw [if_neg wds]
    exact .inl ⟨rfl, same, fun own => wds ⟨own.1, own.2.2.2⟩⟩

/-- What `handle_rx_ind` leaves unpaid, of the buffer in hand and of its look-ups. -/
theorem moves_handleData (env : Nat → Answers) (c : Core) {s : Sta} (unset : b.dst = none)
    (ordered : w.Ordered) (known : s ∈ w.stas) (carried : w.stadb f.addr2 = some s)
    (own : b.src = some s) :
    ∃ due finds : Sta → Int,
      Moves w (w.handleData env c f s b).1
        (fun x => due x + ownsAll (w.handleData env c f s b).2 x - b.owns x) finds ∧
      ((∀ x, due x = 0) ↔ ¬ Padded f w) ∧ ((∀ x, finds x = 0) ↔ ¬ OwnHost c f w) := by
  unfold World.handleData
  by_cases null : f.nullPkt = true
  · have none (s' : Sta) : ¬ Carried f w s' := fun carried => by simp [carried.2] at null
    simp only [null, if_true]
    refine ⟨fun _ => 0, fun _ => 0, (Spends.refl w).moves.trans (Spends.refl w).moves ?_ ?_, ?_, ?_⟩
    · simp
    · simp
    · exact iff_of_true (fun _ => rfl) fun padded => none _ padded.2.2.2.choose_spec
    · exact iff_of_true (fun _ => rfl) fun host => none _ host.2.2.2.2.choose_spec.1
  have passed : Carried f w s := ⟨carried, by simpa using null⟩
  have only : ∀ s', Carried f w s' → s' = s := fun s' carried' =>
    Option.some.inj (carried'.1.symm.trans carried)
  rw [if_neg null]
  simp only
  generalize directed : ({ b with directed := decide (f.addr1 = c.macAddr) } : Nbuf) = b'
  have owns : ∀ x, b'.owns x = b.owns x := by
    intro x
    rw [← directed]
    rfl
  have unset : b'.dst = none := by rw [← directed]; exact unset
  have own : b'.src = some s := by rw [← directed]; exact own
  by_cases aMsdu : f.aMsdu = true
  · have noHost : ¬ OwnHost c f w := fun host => by simp [host.1] at aMsdu
    have parsed := spends_parse c f unset w
    rw [if_pos aMsdu]
    generalize w.parseAMsdu c f b' = result at parsed ⊢
    obtain ⟨u, chain, ok⟩ := result
    simp only at parsed ⊢
    refine ⟨fun x => if (walk f.alloc f.bytes f.len (f.len + 2) 0 0).2 = .padded ∧
        (walk f.alloc f.bytes f.len (f.len + 2) 0 0).1 ≠ [] then b.owns x else 0, fun _ => 0,
      ?_, ?_, iff_of_true (fun _ => rfl) noHost⟩
    · split
      · have dispatched := spends_dispatch env c f chain (parsed.ordered ordered)
          (parsed.stas ▸ known)
        refine parsed.moves.trans dispatched.moves ?_ (by simp)
        intro x
        simp only [owns, ownsAll_nil]
        omega
      · refine parsed.moves.trans (Spends.refl _).moves ?_ (by simp)
        intro x
        simp only [owns]
        omega
    · by_cases padded : (walk f.alloc f.bytes f.len (f.len + 2) 0 0).2 = .padded ∧
          (walk f.alloc f.bytes f.len (f.len + 2) 0 0).1 ≠ []
      · refine iff_of_false ?_ fun not => not ⟨aMsdu, padded.1, padded.2, s, passed⟩
        intro zero
        have here := zero s
        simp only at here
        rw [if_pos padded, ← owns] at here
        simp only [Nbuf.owns, own, unset, if_true, reduceCtorEq, if_false] at here
        omega
      · refine iff_of_true ?_ fun is => padded ⟨is.2.1, is.2.2.1⟩
        exact fun x => if_neg padded
  · have noPadding : ¬ Padded f w := fun padded => aMsdu padded.1
    have aMsdu : f.aMsdu = false := by simpa using aMsdu
    rw [aMsdu]
    simp only [Bool.false_eq_true, if_false]
    obtain ⟨pass, checked, no⟩ | ⟨stop, host, s', checked⟩ := moves_checkHost c f s w
    · rw [if_pos pass]
      refine ⟨fun _ => 0, fun _ => 0, ?_, iff_of_true (fun _ => rfl) noPadding,
        iff_of_true (fun _ => rfl) ?_⟩
      · have analyzed := (spends_analyze c f.hDest unset (w.checkHost c f s).1).1
        have ordered := analyzed.ordered (checked.ordered ordered)
        have dispatched := spends_dispatch env c f
          [((w.checkHost c f s).1.analyzeRxPacket c f.hDest b').2] ordered
          (analyzed.stas ▸ checked.stas ▸ known)
        refine checked.trans (analyzed.moves.trans dispatched.moves (fun _ => rfl) fun _ => rfl)
          ?_ (by simp)
        intro x
        simp only [owns, ownsAll_nil, ownsAll_cons]
        omega
      · rintro ⟨-, wds, sta, host, s', carried', ne⟩
        rw [only s' carried'] at ne
        exact no ⟨wds, sta, host, ne⟩
    · rw [stop]
      simp only [Bool.false_eq_true, if_false]
      refine ⟨fun _ => 0, fun x => if s' = x then 1 else 0, ?_,
        iff_of_true (fun _ => rfl) noPadding,
        iff_of_false ?_ fun not => not ⟨aMsdu, host.1, host.2.1, host.2.2.1, s, passed, host.2.2.2⟩⟩
      · refine checked.trans (Spends.refl _).moves ?_ (by simp)
        intro x
        simp only [owns, ownsAll_nil, ownsAll_cons]
        omega
      · intro zero
        have here := zero s'
        simp at here

/-- A frame that was processed completely. -/
theorem moves_handleRxInd (env : Nat → Answers) (c : Core) (f : Frame) (sound : w.Sound) :
    ∃ due finds : Sta → Int, Moves w (w.handleRxInd env c f) due finds ∧
      ((∀ x, due x = 0) ↔ ¬ Padded f w) ∧ ((∀ x, finds x = 0) ↔ ¬ OwnHost c f w) := by
  cases carried : w.stadb f.addr2 with
  | none =>
    have unknown (s : Sta) : ¬ Carried f w s := fun is => by simp [is.1] at carried
    refine ⟨fun _ => 0, fun _ => 0, ?_,
      iff_of_true (fun _ => rfl) fun padded => unknown _ padded.2.2.2.choose_spec,
      iff_of_true (fun _ => rfl) fun host => unknown _ host.2.2.2.2.choose_spec.1⟩
    unfold World.handleRxInd
    rw [carried]
    have freed := spends_freeSubFrames [⟨none, none, false, false, false, false, false, false⟩] w
    exact freed.moves.trans (Spends.refl _).moves (by simp [Nbuf.owns]) (by simp)
  | some s =>
    have known := sound.known _ _ carried
    unfold World.handleRxInd
    simp only [carried]
    have taken := (moves_found s w).trans (spends_incref (some s) (w.found s)).moves
      (fun _ => rfl) fun _ => rfl
    obtain ⟨due, finds, handled, padded, host⟩ := moves_handleData env c (f := f)
      (b := ⟨some s, none, false, false, false, false, false, false⟩) rfl
      (taken.ordered sound.ordered) (taken.stas ▸ known) (taken.stadb ▸ carried) rfl
    generalize World.handleData env c f s _ _ = result at handled ⊢
    obtain ⟨u, rest⟩ := result
    refine ⟨due, finds, ?_, padded, host⟩
    have ended := (taken.trans handled (fun _ => rfl) fun _ => rfl).trans
      ((moves_lost s u).trans (spends_freeSubFrames rest _).moves (fun _ => rfl) fun _ => rfl)
      (fun _ => rfl) fun _ => rfl
    refine ended.trans (Spends.refl _).moves ?_ ?_
    · intro x
      simp only [Nbuf.owns, reduceCtorEq, if_false, Option.some.injEq]
      omega
    · intro x
      omega

end Moves

/-- After a frame has been processed completely, the references on every station changed by those of
the buffers in the queues and of the hosts only, and every look-up is paid, unless a frame of an own
host came back to a station or an A-MSDU ended in padding. -/
theorem references_conserved (env : Nat → Answers) (c : Core) (f : Frame) (w : World)
    (sound : w.Sound) :
    (w.handleRxInd env c f).Sound ∧
      (Conserved w (w.handleRxInd env c f) ↔ ¬ OwnHost c f w ∧ ¬ Padded f w) := by
  obtain ⟨due, finds, moves, padded, host⟩ := moves_handleRxInd env c f sound
  have hosts := moves.hosts sound.hosts
  constructor
  · refine ⟨hosts.started, moves.ordered sound.ordered, ?_⟩
    rw [moves.stadb, moves.stas]
    exact sound.known
  have count : ∀ s, (w.handleRxInd env c f).count s - w.count s =
      ((w.handleRxInd env c f).owned s - w.owned s) +
        ((behind s (w.handleRxInd env c f).db.hosts : Int) - behind s w.db.hosts) +
          (due s + finds s) := by
    intro s
    have due := moves.due s
    have finds := moves.finds s
    have hosts := hosts.owed s
    simp only [World.due] at due
    simp only [World.count]
    omega
  rw [← padded, ← host]
  constructor
  · intro kept
    have found : ∀ s, finds s = 0 := by
      intro s
      have here := moves.finds s
      rw [kept.finds] at here
      omega
    refine ⟨found, ?_⟩
    intro s
    have all := count s
    rw [kept.count, found] at all
    omega
  · rintro ⟨found, nothing⟩
    constructor
    case finds =>
      intro s
      rw [moves.finds, found, add_zero]
    case count =>
      intro s
      rw [count, found, nothing]
      omega

section Echo

/-- The AP that a station is connected to. -/
def ap : Sta := ⟨0, fun _ => 2⟩

/-- A host of the station, that it sent a frame for. -/
def ownHost : Hstdb.Host := ⟨fun _ => 4, 0, some ap, ap.addr, true, true, [ap]⟩

/-- A station in WDS mode. -/
def wdsSta : Core := ⟨false, .wds, fun _ => 6, false, false, false, fun _ => false⟩

/-- The AP and the host are known, the reordering queues are not in use. -/
def staWorld : World where
  stadb mac := if mac = ap.addr then some ap else none
  db := ⟨[ownHost], 0, fun _ => 0, fun _ => 0, ⟨fun _ => 0, fun _ => 0⟩⟩
  stas := {ap}
  finds := ⟨fun _ => 0, fun _ => 0⟩
  packets := ⟨fun _ => 0, fun _ => 0⟩
  rod _ := .zeroed _
  queued := []
  indicated := []
  asked := 0

/-- The AP sends on what the host broadcast. -/
def echo : Frame where
  addr1 _ := 0xff
  addr2 := ap.addr
  nullPkt := false
  aMsdu := false
  qos := false
  priority := 0
  seq := 0
  now := 0
  hSource := ownHost.addr
  hDest _ := 0xff
  hst := Hstdb.calm
  alloc _ := true
  bytes _ := 0
  len := 0
  subDest _ _ := 0

/-- The queues are not full and nothing is replayed. -/
def granted (_ : Nat) : Answers :=
  ⟨false, true, true, .unknown, [], 1, true, fun _ => true, fun _ => true, true, true⟩

theorem staWorld_sound : staWorld.Sound := by
  constructor
  case hosts =>
    intro h mem
    obtain rfl := List.mem_singleton.1 mem
    exact fun _ => rfl
  case ordered => exact fun _ used => nomatch used
  case known =>
    intro mac s found
    simp only [staWorld] at found ⊢
    split at found
    · rw [← Option.some.inj found]
      exact Finset.mem_singleton_self ap
    · cases found

theorem references_conserved_echo : staWorld.Sound ∧
    (staWorld.handleRxInd granted wdsSta echo).Sound ∧
      (Conserved staWorld (staWorld.handleRxInd granted wdsSta echo) ↔
        ¬ OwnHost wdsSta echo staWorld ∧ ¬ Padded echo staWorld) :=
  ⟨staWorld_sound, references_conserved granted wdsSta echo staWorld staWorld_sound⟩

/-- The reference that the look-up of the host returned is not released. -/
theorem references_not_conserved :
    ¬ ∀ env c f w, World.Sound w → Conserved w (w.handleRxInd env c f) := by
  intro all
  have kept := (all granted wdsSta echo staWorld staWorld_sound).finds ap
  have left : (staWorld.handleRxInd granted wdsSta echo).finds.owed ap = 1 := by decide
  rw [left] at kept
  exact absurd kept (by decide)

end Echo

end Wave300.Recv
