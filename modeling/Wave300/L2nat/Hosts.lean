import Wave300.L2nat.Datapath

/-!
# Answers reach the host that asked

In every run the table knows of an IP address only what was learnt last, so an answer goes to the
host that has sent last from its address, or to the default host.
-/

namespace Wave300.L2nat

open Wave300.Lib

namespace Table

variable {k : Kernel} {s t : Table} {hosts : UInt32 → Option Mac}

/-- The table has nothing but what was learnt. -/
def Learnt (hosts : UInt32 → Option Mac) (s : Table) : Prop :=
  ∀ i, (s.entries i).active = true → hosts (s.entries i).ip = some (s.entries i).mac

/-- What one table has is in another. -/
def Within (t s : Table) : Prop :=
  ∀ i, (t.entries i).active = true → (s.entries i).active = true ∧
    (t.entries i).ip = (s.entries i).ip ∧ (t.entries i).mac = (s.entries i).mac

theorem Within.refl (s : Table) : s.Within s := fun _ active => ⟨active, rfl, rfl⟩

theorem Within.trans {r : Table} (h : r.Within t) (h' : t.Within s) : r.Within s := by
  intro i active
  obtain ⟨active', ip, mac⟩ := h i active
  obtain ⟨active'', ip', mac'⟩ := h' i active'
  exact ⟨active'', ip.trans ip', mac.trans mac'⟩

theorem Learnt.within (h : s.Learnt hosts) (sub : t.Within s) : t.Learnt hosts := by
  intro i active
  obtain ⟨active', ip, mac⟩ := sub i active
  rw [ip, mac]
  exact h i active'

theorem Sound.hostOf_eq (h : s.Sound k) (ip : UInt32) (mac : Mac) :
    s.hostOf k ip = some mac ↔
      ∃ i, (s.entries i).active = true ∧ (s.entries i).ip = ip ∧ (s.entries i).mac = mac := by
  rw [hostOf, Option.map_eq_some_iff]
  constructor
  · rintro ⟨i, found, same⟩
    obtain ⟨active, here⟩ := (h.findEntry_eq ip i).1 found
    exact ⟨i, active, here, same⟩
  · rintro ⟨i, active, here, same⟩
    exact ⟨i, (h.findEntry_eq ip i).2 ⟨active, here⟩, same⟩

/-! ## Operations that learn nothing -/

theorem within_set (s : Table) (i : Index) {ent : HashEntry}
    (same : ent.active = true → (s.entries i).active = true)
    (ip : ent.ip = (s.entries i).ip) (mac : ent.mac = (s.entries i).mac) :
    (s.set i ent).Within s := by
  intro j active
  by_cases here : j = i
  · subst here
    rw [set_self] at active ⊢
    exact ⟨same active, ip, mac⟩
  · rw [set_of_ne s here] at active ⊢
    exact ⟨active, rfl, rfl⟩

theorem within_deleteEntry (s : Table) (d : Index) : (s.deleteEntry k d).Within s := by
  rw [deleteEntry]
  split
  · exact s.within_set d id rfl rfl
  · exact s.within_set d (by simp) rfl rfl

theorem within_genFakeArpReq (s : Table) (sip : UInt32) (smac : Mac) (dip now : UInt32) :
    (s.genFakeArpReq k sip smac dip now).Within s := by
  rw [genFakeArpReq]
  split
  · exact .refl s
  split
  · exact .refl s
  · exact fun _ active => ⟨active, rfl, rfl⟩

theorem within_modTimer (s : Table) (i : Index) (expires : UInt32) :
    (s.modTimer i expires).Within s := s.within_set i id rfl rfl

theorem within_agingTimer (s : Table) (i : Index) (now : UInt32) :
    (s.agingTimer k i now).Within s := by
  rw [agingTimer]
  split
  · exact .refl s
  split
  · exact s.within_set i id rfl rfl
  simp only
  split
  · exact s.within_deleteEntry i
  split
  · exact s.within_modTimer i _
  split
  · have flagged : { s with needArpInfo := true }.Within s := fun _ active => ⟨active, rfl, rfl⟩
    exact (within_modTimer _ i _).trans flagged
  · exact (within_modTimer _ i _).trans (s.within_genFakeArpReq _ _ _ _)

theorem within_clearTable (s : Table) : (s.clearTable k).Within s := by
  have all : ∀ (l : List Index) (t : Table), t.Within s →
      (l.foldl (Table.deleteEntry k) t).Within s := by
    intro l
    induction l with
    | nil => exact fun _ => id
    | cons i l ih => exact fun t h => ih _ ((t.within_deleteEntry i).trans h)
  exact all _ s (.refl s)

theorem within_onRxIp (s : Table) (saddr : UInt32) (source : Mac) (daddr now : UInt32) :
    (s.onRxIp k saddr source daddr now).Within s := by
  rw [onRxIp]
  split
  · exact s.within_genFakeArpReq _ _ _ _
  · split
    · exact fun _ active => ⟨active, rfl, rfl⟩
    · exact .refl s

/-! ## Learning -/

/-- The entries after `check_and_add_entry`: that of the address, and others that were there. -/
def Learns (s : Table) (ip : UInt32) (mac : Mac) (t : Table) : Prop :=
  ∀ i, (t.entries i).active = true →
    (t.entries i).ip = ip ∧ (t.entries i).mac = mac ∨
    (s.entries i).active = true ∧ (t.entries i).ip = (s.entries i).ip ∧
      (t.entries i).mac = (s.entries i).mac ∧ (t.entries i).ip ≠ ip

theorem Sound.learns_add (h : s.Sound k) {ip : UInt32} (none : s.findEntry k ip = none)
    (nonzero : ip ≠ 0) (some : s.freeEntries ≠ []) (mac : Mac) (first last : UInt32) :
    s.Learns ip mac (s.addEntry k ip mac first last).1 := by
  obtain ⟨i, free, head⟩ := List.exists_cons_of_ne_nil some
  obtain ⟨_, _, ent, entries, ip', _, mac'⟩ := h.addEntry head nonzero
    (fun j active => h.findEntry_none none active) mac first last
  intro j active
  rw [entries] at active ⊢
  by_cases same : j = i
  · subst same
    rw [Function.update_self]
    exact .inl ⟨ip', mac'⟩
  · rw [Function.update_of_ne same] at active ⊢
    exact .inr ⟨active, rfl, rfl, h.findEntry_none none active⟩

theorem Sound.learns (h : s.Sound k) (ip : UInt32) (mac : Mac) (now first last : UInt32) :
    s.Learns ip mac (s.checkAndAddEntry k ip mac now first last).1 := by
  rw [Table.checkAndAddEntry]
  split
  case h_1 i found =>
    obtain ⟨active, here⟩ := (h.findEntry_eq ip i).1 found
    intro j active'
    by_cases same : j = i
    · subst same
      rw [updateEntry, set_self]
      exact .inl ⟨here, rfl⟩
    · rw [updateEntry, set_of_ne s same] at active' ⊢
      exact .inr ⟨active', rfl, rfl,
        fun eq => same (h.distinct j i active' active (eq.trans here.symm))⟩
  case h_2 none =>
    have nothing : s.Learns ip mac s :=
      fun j active => .inr ⟨active, rfl, rfl, h.findEntry_none none active⟩
    split
    case isTrue => exact nothing
    case isFalse nonzero =>
      split
      case isTrue full =>
        split
        case h_1 => exact nothing
        case h_2 x oldest =>
          have less := s.within_deleteEntry (k := k) x
          have sound := h.deleteEntry x
          have none' : (s.deleteEntry k x).findEntry k ip = Option.none := by
            cases found : (s.deleteEntry k x).findEntry k ip with
            | none => rfl
            | some i =>
              obtain ⟨active, here⟩ := (sound.findEntry_eq ip i).1 found
              obtain ⟨active', same, _⟩ := less i active
              exact absurd (same.symm.trans here) (h.findEntry_none none active')
          have some : (s.deleteEntry k x).freeEntries ≠ [] := by
            cases idle : (s.entries x).active with
            | true =>
              rw [Table.deleteEntry, if_neg (by simp [idle])]
              exact List.cons_ne_nil _ _
            | false =>
              have mem := (h.mem_free x).2 idle
              rw [full] at mem
              cases mem
          intro j active
          obtain new | ⟨active', ip', mac', ne⟩ :=
            sound.learns_add none' nonzero some mac first last j active
          · exact .inl new
          · obtain ⟨active'', ip'', mac''⟩ := less j active'
            exact .inr ⟨active'', ip'.trans ip'', mac'.trans mac'', ne⟩
      case isFalse some => exact h.learns_add none nonzero some mac first last

/-- The address is put into the table, unless it is full of entries that were used just now. -/
theorem Sound.hostOf_added (h : s.Sound k) {ip : UInt32} (mac : Mac) (now first last : UInt32)
    (nonzero : ip ≠ 0)
    (fits : s.findEntry k ip ≠ none ∨ s.freeEntries ≠ [] ∨ s.findOldest now ≠ none) :
    (s.checkAndAddEntry k ip mac now first last).1.hostOf k ip = some mac := by
  have adds := h.checkAndAddEntry ip mac now first last
  have put := (h.puts_iff ip mac now first last).2
    ⟨nonzero, fits.imp_right (.imp_right findOldest_ne_none.1)⟩
  obtain ⟨i, found, same⟩ := adds.here put
  rw [hostOf, found, Option.map_some, same]

/-- Other hosts stay, but for one that is evicted from a full table. -/
theorem Sound.hostOf_other (h : s.Sound k) (ip : UInt32) (mac : Mac) (now first last : UInt32)
    {other : UInt32} (ne : other ≠ ip) :
    (s.checkAndAddEntry k ip mac now first last).1.hostOf k other = s.hostOf k other ∨
      s.freeEntries = [] ∧ (s.checkAndAddEntry k ip mac now first last).1.hostOf k other = none ∧
        ∃ x, s.findEntry k other = some x ∧ ∀ i, s.delta now i ≤ s.delta now x := by
  have adds := h.checkAndAddEntry ip mac now first last
  obtain same | ⟨full, x, was, gone, _, oldest⟩ := adds.there other ne
  · left
    rw [hostOf, hostOf, same]
    cases found : s.findEntry k other with
    | none => rfl
    | some i =>
      obtain ⟨active, here⟩ := (adds.sound.findEntry_eq other i).1 (same.trans found)
      obtain ⟨its, _⟩ | ⟨_, _, mac', _⟩ := h.learns ip mac now first last i active
      · exact absurd (here.symm.trans its) ne
      · rw [Option.map_some, Option.map_some, mac']
  · exact .inr ⟨full, by rw [hostOf, gone]; rfl, x, was, oldest⟩

theorem Learnt.learns {ip : UInt32} {mac : Mac} (h : s.Learnt hosts) (l : s.Learns ip mac t) :
    t.Learnt (Function.update hosts ip (some mac)) := by
  intro i active
  obtain ⟨ip', mac'⟩ | ⟨active', ip', mac', ne⟩ := l i active
  · rw [ip', mac', Function.update_self]
  · rw [Function.update_of_ne ne, ip', mac']
    exact h i active'

end Table

/-! ## Runs -/

variable {k : Kernel} {sums : Checksums} {s s' : Station} {hosts : UInt32 → Option Mac}
  {hstdb : Option Mac} {m m' : Nat → UInt8} {len a : Nat} {now : UInt32}

/-- What is known of hosts was learnt. -/
structure Station.Sound (k : Kernel) (hosts : UInt32 → Option Mac) (s : Station) : Prop where
  table : s.table.Sound k
  learnt : s.table.Learnt hosts

theorem onTx_sound {t : Table} (h : t.Sound k) (l : t.Learnt hosts) (sums : Checksums)
    (room : Option Room) (coreMac : Mac) (skb : SkBuff) (now first last : UInt32) :
    (onTx k sums room coreMac t skb now first last).1.Sound k ∧
      (onTx k sums room coreMac t skb now first last).1.Learnt
        (learn hosts (.tx room coreMac skb now first last)) := by
  have add : ∀ ip mac, (t.checkAndAddEntry k ip mac now first last).1.Sound k ∧
      (t.checkAndAddEntry k ip mac now first last).1.Learnt
        (Function.update hosts ip (some mac)) := fun ip mac =>
    ⟨(h.checkAndAddEntry ip mac now first last).sound, l.learns (h.learns ip mac now first last)⟩
  rw [onTx, learn, sender]
  cases analyse skb.len skb.mem (word skb.mem 12) 14 with
  | none => exact ⟨h, l⟩
  | some found =>
    obtain ⟨kind, offset⟩ := found
    cases kind with
    | ip => exact add _ _
    | arp =>
      dsimp only
      split
      case isTrue =>
        cases unshared room skb with
        | error f => exact ⟨h, l⟩
        | ok skb => exact add _ _
      case isFalse => exact ⟨h, l⟩
    | ipx => exact ⟨h, l⟩
    | pae => exact ⟨h, l⟩
    | other => exact ⟨h, l⟩

theorem Station.onRx_table (h : s.table.Sound k)
    (run : s.onRx k hstdb m len now = some (s', m')) :
    s'.table.Sound k ∧ s'.table.Within s.table := by
  have same : s.table.Sound k ∧ s.table.Within s.table := ⟨h, .refl _⟩
  rw [Station.onRx] at run
  split at run
  · cases run
    exact same
  dsimp only at run
  split at run
  · cases run
  · cases run
    exact same
  · cases run
    exact ⟨h.step (.onRxIp _ _ _ _), s.table.within_onRxIp _ _ _ _⟩
  · split at run
    · cases run
      exact same
    split at run
    · cases run
      exact ⟨h.genFakeArpReq _ _ _ _, s.table.within_genFakeArpReq _ _ _ _⟩
    split at run
    · cases run
      exact same
    split at run <;> cases run <;> exact same
  · split at run <;> cases run <;> exact same
  · cases run
    exact same

theorem Station.Sound.step (h : s.Sound k hosts) (sums : Checksums) (input : Input) :
    (s.step k sums input).Sound k (learn hosts input) := by
  cases input with
  | tx room coreMac skb now first last =>
    obtain ⟨table, learnt⟩ := onTx_sound h.table h.learnt sums room coreMac skb now first last
    exact ⟨table, learnt⟩
  | rx hstdb m len now =>
    rw [Station.step]
    cases run : s.onRx k hstdb m len now with
    | none => exact h
    | some r =>
      obtain ⟨table, within⟩ := s.onRx_table h.table run
      exact ⟨table, h.learnt.within within⟩
  | userSetDefHost mac =>
    rw [Station.step, Station.userSetDefHost]
    split
    · exact ⟨h.table, h.learnt⟩
    split <;> exact ⟨h.table, h.learnt⟩
  | agingTimer i now =>
    exact ⟨h.table.agingTimer i now, h.learnt.within (s.table.within_agingTimer i now)⟩
  | clearTable => exact ⟨h.table.clearTable, h.learnt.within s.table.within_clearTable⟩
  | setAgingTimeout timeout =>
    exact ⟨h.table.step (.setAgingTimeout timeout), fun i active => h.learnt i active⟩

theorem Station.Sound.run (h : s.Sound k hosts) (sums : Checksums) (inputs : List Input) :
    (inputs.foldl (Station.step k sums) s).Sound k (inputs.foldl learn hosts) := by
  induction inputs generalizing s hosts with
  | nil => exact h
  | cons input inputs ih => exact ih (h.step sums input)

theorem Station.init_sound (k : Kernel) (agingTimeout start : UInt32) :
    (Station.init agingTimeout start).Sound k fun _ => none :=
  ⟨Table.init_sound k agingTimeout start, nofun⟩

/-! ## Frames for hosts -/

/-- The host that a packet is for. -/
def receiver (m : Nat → UInt8) : Kind → Nat → Option UInt32
  | .ip, ip => some (address m (ip + 16))
  | .arp, arp =>
    if EtherArp m arp ∧ (word m (arp + 6) = 1 ∨ word m (arp + 6) = 2) then
      some (address m (arp + 24))
    else none
  | _, _ => none

/-- The other place where a frame has the address of its host: the target of an ARP reply, and the
destination node of an IPX packet. -/
def inside (m : Nat → UInt8) : Kind → Nat → Option Nat
  | .arp, arp => if EtherArp m arp ∧ word m (arp + 6) = 2 then some (arp + 18) else none
  | .ipx, ipx => some (ipx + 10)
  | _, _ => none

/-- A frame is addressed to a host, also inside, and nothing else in it is changed. -/
structure Addressed (mac : Mac) (place : Option Nat) (m m' : Nat → UInt8) : Prop where
  dest : slice m' 0 6 = macBytes mac
  inside : ∀ a, place = some a → slice m' a 6 = macBytes mac
  others : ChangesIn ((0, 6) :: place.toList.map (·, 6)) m m'

theorem length_macBytes (mac : Mac) : (macBytes mac).length = 6 := length_toBytes 6 _

theorem addressed_setDest (m : Nat → UInt8) (mac : Mac) :
    Addressed mac none m (setDest m (some mac)) where
  dest := slice_store (length_macBytes mac)
  inside := nofun
  others := store_changesIn (by rw [length_macBytes]; exact List.mem_cons_self)

theorem addressed_inside (m : Nat → UInt8) (mac : Mac) (far : 6 ≤ a) :
    Addressed mac (some a) m (setDest (store m a (macBytes mac)) (some mac)) where
  dest := slice_store (length_macBytes mac)
  inside := by
    rintro _ ⟨⟩
    rw [setDest, slice_store_of_disjoint (.inr (by rw [length_macBytes]; omega)),
      slice_store (length_macBytes mac)]
  others := by
    have first : ChangesIn [(0, 6), (a, 6)] m (store m a (macBytes mac)) :=
      store_changesIn (by rw [length_macBytes]; exact List.mem_cons_of_mem _ List.mem_cons_self)
    exact first.trans (store_changesIn (by rw [length_macBytes]; exact List.mem_cons_self))

/-- A frame goes to the host it is for, if that is known, else to the default host, if there is
one. -/
theorem Station.onRx_addresses (s : Station) (k : Kernel) (hstdb : Option Mac) (m : Nat → UInt8)
    (len : Nat) (now : UInt32) {kind : Kind} {offset : Nat} (unicast : m 0 &&& 1 = 0)
    (found : analyse len m (word m 12) 14 = some (kind, offset)) (data : kind ≠ .pae) :
    ∃ s' m', s.onRx k hstdb m len now = some (s', m') ∧
      match (receiver m kind offset).bind (s.table.hostOf k), s.defHost hstdb with
      | some mac, _ => Addressed mac (inside m kind offset) m m'
      | none, some mac => Addressed mac (if kind = .ipx then some (offset + 10) else none) m m'
      | none, none => m' = m := by
  have far : 14 ≤ offset := by
    obtain ⟨tags, last, layout, _⟩ := analyse_layout found
    exact layout.offset_ge
  rw [Station.onRx, if_neg (not_not.2 unicast), found]
  cases kind with
  | pae => exact absurd rfl data
  | ip =>
    refine ⟨_, _, rfl, ?_⟩
    change match s.table.hostOf k (address m (offset + 16)), s.defHost hstdb with
      | some mac, _ => Addressed mac none m _
      | none, some mac => Addressed mac none m _
      | none, none => _ = m
    cases s.table.hostOf k (address m (offset + 16)) with
    | some mac => exact addressed_setDest m mac
    | none =>
      cases s.defHost hstdb with
      | some mac => exact addressed_setDest m mac
      | none => rfl
  | arp =>
    have default : ∀ s' : Station, ∃ s'' m',
        some (s', setDest m (s.defHost hstdb)) = some (s'', m') ∧
        match none, s.defHost hstdb with
        | some mac, _ => Addressed mac (inside m .arp offset) m m'
        | none, some mac => Addressed mac none m m'
        | none, none => m' = m := by
      intro s'
      refine ⟨_, _, rfl, ?_⟩
      cases s.defHost hstdb with
      | some mac => exact addressed_setDest m mac
      | none => rfl
    dsimp only
    split
    case isTrue foreign =>
      rw [receiver, if_neg fun both => foreign both.1]
      exact default s
    case isFalse ether =>
      rw [not_not] at ether
      cases known : s.table.hostOf k (address m (offset + 8 + 16)) with
      | none =>
        have nobody : (receiver m .arp offset).bind (s.table.hostOf k) = none := by
          rw [receiver]
          split
          · exact known
          · rfl
        rw [nobody]
        exact default _
      | some mac =>
        have here : (some (address m (offset + 24))).bind (s.table.hostOf k) = some mac := known
        dsimp only
        split
        case isTrue reply =>
          rw [receiver, if_pos ⟨ether, .inr reply⟩, inside, if_pos ⟨ether, reply⟩]
          rw [here]
          exact ⟨_, _, rfl, addressed_inside m mac (by omega)⟩
        case isFalse other =>
          split
          case isTrue request =>
            rw [receiver, if_pos ⟨ether, .inl request⟩, inside, if_neg fun both => other both.2]
            rw [here]
            exact ⟨_, _, rfl, addressed_setDest m mac⟩
          case isFalse neither =>
            rw [receiver, if_neg fun both => both.2.elim neither other]
            exact default s
  | ipx =>
    dsimp only [receiver, Option.bind_none]
    cases s.defHost hstdb with
    | some mac => exact ⟨_, _, rfl, addressed_inside m mac (by omega)⟩
    | none => exact ⟨_, _, rfl, rfl⟩
  | other =>
    refine ⟨_, _, rfl, ?_⟩
    dsimp only [receiver, Option.bind_none]
    cases s.defHost hstdb with
    | some mac => exact addressed_setDest m mac
    | none => rfl

/-- In every run the table knows a host only by the frame that was sent last from its address. So a
unicast frame that comes in is given to the host that has sent last from the IP address that it is
for, if the table knows one, and else to the default host, if there is one: that is its destination,
and the target in an ARP reply, and no other byte is changed. -/
theorem l2nat_answers_last_sender (k : Kernel) (sums : Checksums) (agingTimeout start : UInt32)
    (inputs : List Input) (hstdb : Option Mac) (m : Nat → UInt8) (len : Nat) (now : UInt32)
    {kind : Kind} {offset : Nat} (unicast : m 0 &&& 1 = 0)
    (found : analyse len m (word m 12) 14 = some (kind, offset)) (data : kind ≠ .pae) :
    let s := inputs.foldl (Station.step k sums) (.init agingTimeout start)
    (∀ ip mac, s.table.hostOf k ip = some mac →
      inputs.foldl learn (fun _ => none) ip = some mac) ∧
    ∃ s' m', s.onRx k hstdb m len now = some (s', m') ∧
      match (receiver m kind offset).bind (s.table.hostOf k), s.defHost hstdb with
      | some mac, _ => Addressed mac (inside m kind offset) m m'
      | none, some mac => Addressed mac (if kind = .ipx then some (offset + 10) else none) m m'
      | none, none => m' = m := by
  intro s
  refine ⟨fun ip mac known => ?_, s.onRx_addresses k hstdb m len now unicast found data⟩
  have sound : s.Sound k (inputs.foldl learn fun _ => none) :=
    (Station.init_sound k agingTimeout start).run sums inputs
  obtain ⟨i, active, rfl, rfl⟩ := (sound.table.hostOf_eq ip mac).1 known
  exact sound.learnt i active

/-- A frame with an IP packet from 10.0.0.2, which is no DHCP request. -/
def ipFrame (dest source daddr : List UInt8) : Nat → UInt8 :=
  ((dest ++ source ++ [8, 0] ++ [0x45, 0, 0, 20, 0, 0, 0, 0, 64, 1, 0, 0, 10, 0, 0, 2] ++
    daddr).getD · 0)

def someKernel : Kernel := ⟨id, 100⟩

/-- A host has sent, and is answered. -/
theorem l2nat_answers_last_sender_ip :
    let m := ipFrame [2, 0, 0, 0, 0, 7] [2, 0, 0, 0, 0, 8] [10, 0, 0, 2]
    let inputs := [Input.tx none 5 ⟨ipFrame [2, 0, 0, 0, 0, 8] [2, 0, 0, 0, 0, 9] [10, 0, 0, 3],
      34, 0, false, 1⟩ 1 1 1]
    let s := inputs.foldl (Station.step someKernel noChecksums) (.init 0 0)
    (∀ ip mac, s.table.hostOf someKernel ip = some mac →
      inputs.foldl learn (fun _ => none) ip = some mac) ∧
    ∃ s' m', s.onRx someKernel none m 34 2 = some (s', m') ∧
      match (receiver m .ip 14).bind (s.table.hostOf someKernel), s.defHost none with
      | some mac, _ => Addressed mac (inside m .ip 14) m m'
      | none, some mac => Addressed mac (if Kind.ip = .ipx then some (14 + 10) else none) m m'
      | none, none => m' = m := by
  intro m inputs
  exact l2nat_answers_last_sender someKernel noChecksums 0 0 inputs none m 34 2 (by decide)
    (by decide) (by decide)

/-! ## Frames of hosts -/

theorem unshared_bytes {room : Option Room} {skb skb' : SkBuff}
    (ok : unshared room skb = .ok skb') : ∀ j < skb.len, skb'.mem j = skb.mem j := by
  intro j lt
  rw [unshared] at ok
  split at ok
  · cases ok
  · cases ok
    rw [skbUnshare]
    split
    · cases room with
      | none => rfl
      | some r => exact if_pos lt
    · rfl

theorem onTx_of_sender {room : Option Room} {skb : SkBuff} {ip : UInt32} {mac : Mac}
    (sends : sender room skb = some (ip, mac)) (sums : Checksums) (coreMac : Mac) (t : Table)
    (now first last : UInt32) :
    (onTx k sums room coreMac t skb now first last).1 =
      (t.checkAndAddEntry k ip mac now first last).1 ∧
    ∀ arp, analyse skb.len skb.mem (word skb.mem 12) 14 = some (.arp, arp) →
      ∃ skb', (onTx k sums room coreMac t skb now first last).2 = .ok skb' ∧
        slice skb'.mem (arp + 8) 6 = macBytes coreMac ∧
        ∀ j < skb.len, j < arp + 8 ∨ arp + 14 ≤ j → skb'.mem j = skb.mem j := by
  rw [sender] at sends
  rw [onTx]
  split at sends
  case h_1 at' found =>
    cases sends
    rw [found]
    exact ⟨rfl, nofun⟩
  case h_2 arp found =>
    rw [found]
    split at sends
    case isTrue ether =>
      dsimp only
      rw [if_pos ether]
      cases copy : unshared room skb with
      | error f =>
        rw [copy] at sends
        cases sends
      | ok skb' =>
        rw [copy] at sends
        cases sends
        refine ⟨rfl, ?_⟩
        rintro _ ⟨⟩
        refine ⟨_, rfl, slice_store (length_macBytes coreMac), fun j lt out => ?_⟩
        exact (store_outside (by rw [length_macBytes]; exact out)).trans (unshared_bytes copy j lt)
    case isFalse => cases sends
  case h_3 => cases sends

/-- A frame that is sent makes its host known, whose other frames are then answered, and leaves the
other hosts known as they were, but for the one not used for the longest time when the table is
full. What is sent of an ARP packet comes from the station, and nothing else in it is changed. -/
theorem l2nat_sender_is_known (k : Kernel) (sums : Checksums) (agingTimeout start : UInt32)
    (inputs : List Input) (room : Option Room) (coreMac : Mac) (skb : SkBuff)
    (now first last : UInt32) {ip : UInt32} {mac : Mac}
    (sends : sender room skb = some (ip, mac)) (nonzero : ip ≠ 0) :
    let s := inputs.foldl (Station.step k sums) (.init agingTimeout start)
    let r := onTx k sums room coreMac s.table skb now first last
    (s.table.findEntry k ip ≠ none ∨ s.table.freeEntries ≠ [] ∨ s.table.findOldest now ≠ none →
      r.1.hostOf k ip = some mac) ∧
    (∀ other, other ≠ ip → r.1.hostOf k other = s.table.hostOf k other ∨
      s.table.freeEntries = [] ∧ r.1.hostOf k other = none ∧
        ∃ x, s.table.findEntry k other = some x ∧ ∀ i, s.table.delta now i ≤ s.table.delta now x) ∧
    ∀ arp, analyse skb.len skb.mem (word skb.mem 12) 14 = some (.arp, arp) →
      ∃ skb', r.2 = .ok skb' ∧ slice skb'.mem (arp + 8) 6 = macBytes coreMac ∧
        ∀ j < skb.len, j < arp + 8 ∨ arp + 14 ≤ j → skb'.mem j = skb.mem j := by
  intro s r
  have sound : s.Sound k (inputs.foldl learn fun _ => none) :=
    (Station.init_sound k agingTimeout start).run sums inputs
  obtain ⟨table, frame⟩ := onTx_of_sender (k := k) sends sums coreMac s.table now first last
  refine ⟨fun fits => ?_, fun other ne => ?_, frame⟩
  · rw [table]
    exact sound.table.hostOf_added mac now first last nonzero fits
  · rw [table]
    exact sound.table.hostOf_other ip mac now first last ne

/-- An ARP request of 10.0.0.4. -/
def arpFrame (source : List UInt8) : Nat → UInt8 :=
  ((List.replicate 6 0xFF ++ source ++ [8, 6] ++ [0, 1, 8, 0, 6, 4, 0, 1] ++ source ++
    [10, 0, 0, 4] ++ [0, 0, 0, 0, 0, 0, 10, 0, 0, 2]).getD · 0)

/-- Another host has sent before. -/
theorem l2nat_sender_is_known_arp :
    let earlier : SkBuff :=
      ⟨ipFrame [2, 0, 0, 0, 0, 8] [2, 0, 0, 0, 0, 9] [10, 0, 0, 3], 34, 0, false, 1⟩
    let skb : SkBuff := ⟨arpFrame [2, 0, 0, 0, 0, 7], 42, 0, false, 1⟩
    let s := [Input.tx none 5 earlier 1 1 1].foldl (Station.step someKernel noChecksums)
      (.init 0 0)
    let r := onTx someKernel noChecksums none 5 s.table skb 2 2 2
    r.1.hostOf someKernel 0x0A000004 = some 0x020000000007 ∧
      r.1.hostOf someKernel 0x0A000002 = some 0x020000000009 ∧
      ∃ skb', r.2 = .ok skb' ∧ slice skb'.mem 22 6 = macBytes 5 ∧
        ∀ j < 42, j < 22 ∨ 28 ≤ j → skb'.mem j = skb.mem j := by
  intro earlier skb s r
  have sends : sender none skb = some (0x0A000004, 0x020000000007) := by decide +kernel
  obtain ⟨known, others, frame⟩ := l2nat_sender_is_known someKernel noChecksums 0 0
    [.tx none 5 earlier 1 1 1] none 5 skb 2 2 2 sends (by decide)
  have room : s.table.freeEntries ≠ [] := by decide +kernel
  refine ⟨known (.inr (.inl room)), ?_, frame 14 (by decide +kernel)⟩
  obtain same | ⟨full, -⟩ := others 0x0A000002 (by decide)
  · exact same.trans (by decide +kernel)
  · exact absurd full room

end Wave300.L2nat
