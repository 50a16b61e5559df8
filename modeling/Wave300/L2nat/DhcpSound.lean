import Wave300.L2nat.DhcpRequest

/-!
# Requests stay well formed

What `dhcp_req_update` makes of a request is the request with options put before its END, when
there is an END to put them before and no room is added that no option needs.
-/

namespace Wave300.L2nat

open Wave300.Lib

/-- A request that is accepted, and whose headers it has. -/
structure DhcpReq (skb : SkBuff) (ip : Nat) : Prop where
  accepted : Accepted skb.mem ip
  whole : dhcpOpts skb.mem ip ≤ skb.len

/-- The flags, `ciaddr`, the sizes and the checksums. -/
def rewrittenFields (ip udp : Nat) : List (Nat × Nat) :=
  [(udp + 18, 2), (udp + 20, 4), (ip + 2, 2), (ip + 10, 2), (udp + 4, 2), (udp + 6, 2)]

/-- Where options were added, with the END after them. -/
def addedRange (a : Nat) (added : List Tlv) : Nat × Nat :=
  (a, if added = [] then 0 else 6 * added.length + 1)

/-- A packet is another one with some options added before the END. -/
structure Extends (skb skb' : SkBuff) (ip : Nat) (before : List Element) (added : List Tlv)
    (after : List Element) : Prop where
  codes : (added.map Tlv.id).Sublist [dhcpOptReqIp, dhcpOptSrvId]
  addresses : ∀ t ∈ added, t.data.length = 4
  len : skb'.len = skb.len + 6 * added.length
  totLen : word skb'.mem (ip + 2) = word skb.mem (ip + 2) + 6 * added.length
  udpLen : word skb'.mem (udpHeader skb.mem ip + 4) =
    word skb.mem (udpHeader skb.mem ip + 4) + 6 * added.length
  options : dhcpOptions skb.mem skb.len (dhcpOpts skb.mem ip) = before ++ after
  options' : dhcpOptions skb'.mem skb'.len (dhcpOpts skb.mem ip) =
    before ++ added.map .tlv ++ after
  ended : added ≠ [] → after = [.stop]
  frame : ∀ j < skb.len, Outside (addedRange (dhcpOpts skb.mem ip + Element.sizes before) added ::
    rewrittenFields ip (udpHeader skb.mem ip)) j → skb'.mem j = skb.mem j

/-- The packet that is returned is the request with some options added. -/
def Keeps (skb : SkBuff) (ip : Nat) (r : Except DhcpFault SkBuff) : Prop :=
  ∃ skb' before added after, r = .ok skb' ∧ Extends skb skb' ip before added after

/-! ## The layout of the headers -/

variable {m m' : Nat → UInt8} {skb : SkBuff} {ip udp : Nat}

/-- The UDP header is behind the first word of the IP header, at a multiple of four bytes. -/
theorem udpHeader_of_accepted (h : Accepted m ip) :
    udpHeader m ip = ip + 4 ∨ ip + 8 ≤ udpHeader m ip := by
  obtain ⟨protocol, -, -, htype, -⟩ := h
  by_contra near
  have same : udpHeader m ip = ip := by
    rw [udpHeader] at near ⊢
    omega
  rw [dhcpHeader, same] at htype
  rw [htype] at protocol
  exact absurd protocol (by decide)

theorem word_lt (m : Nat → UInt8) (a : Nat) : word m a < 65536 := by
  have lt := ofBytes_lt (slice m a 2)
  rw [slice_length] at lt
  exact lt

/-- A size that became larger by as much as it should did not overflow. -/
theorem lt_of_grown {n k k' : Nat} (size : (n + k) % 65536 = n + k') (same : k = k') :
    n + k < 65536 := by
  rw [same, ← size]
  exact Nat.mod_lt _ (by decide)

theorem word_storeWord (m : Nat → UInt8) (a n : Nat) : word (storeWord m a n) a = n % 65536 := by
  rw [word, storeWord, slice_store (length_toBytes 2 n), ofBytes_toBytes]
  rfl

theorem word_storeWord_apart {a d n : Nat} (apart : a + 2 ≤ d ∨ d + 2 ≤ a) :
    word (storeWord m d n) a = word m a := by
  rw [word, storeWord, slice_store_of_disjoint]
  · rfl
  · rwa [length_toBytes]

theorem storeWord_changesIn {ranges : List (Nat × Nat)} {a n : Nat} (mem : (a, 2) ∈ ranges) :
    ChangesIn ranges m (storeWord m a n) :=
  store_changesIn (by rwa [length_toBytes])

theorem word_of_changesIn {ranges : List (Nat × Nat)} {a : Nat} (change : ChangesIn ranges m m')
    (apart : ∀ r ∈ ranges, a + 2 ≤ r.1 ∨ r.1 + r.2 ≤ a) : word m' a = word m a := by
  rw [word, change.slice_eq apart, word]

/-! ## What each change does -/

/-- The flags, and the checksum. -/
theorem setBroadcast_changesIn (m : Nat → UInt8) (udp : Nat) :
    ChangesIn [(udp + 18, 2), (udp + 6, 2)] m (setBroadcast m udp (udp + 8)) := by
  have flag : ChangesIn [(udp + 18, 1)] m (store m (udp + 8 + 10) [m (udp + 8 + 10) ||| 0x80]) :=
    store_changesIn (by simp)
  have flags : ChangesIn [(udp + 18, 2), (udp + 6, 2)] m
      (store m (udp + 8 + 10) [m (udp + 8 + 10) ||| 0x80]) := by
    apply flag.mono
    simp [Outside]
    omega
  rw [setBroadcast]
  split
  · dsimp only
    split
    · exact flags
    · exact flags.trans (storeWord_changesIn (by simp))
  · exact ChangesIn.refl _ m

theorem recalculate_changesIn (sums : Checksums) (m : Nat → UInt8) (ip udp : Nat) :
    ChangesIn [(ip + 10, 2), (udp + 6, 2)] m (recalculate sums m ip udp) := by
  have ipCheck (n n' : Nat) : ChangesIn [(ip + 10, 2), (udp + 6, 2)] m
      (storeWord (storeWord m (ip + 10) n) (ip + 10) n') :=
    (storeWord_changesIn (by simp)).trans (storeWord_changesIn (by simp))
  rw [recalculate]
  dsimp only
  split
  · exact ipCheck _ _
  · exact ((ipCheck _ _).trans (storeWord_changesIn (by simp))).trans
      (storeWord_changesIn (by simp))

theorem resize_changesIn (m : Nat → UInt8) (ip udp extra : Nat) :
    ChangesIn [(udp + 20, 4), (ip + 2, 2), (udp + 4, 2)] m (resize m ip udp (udp + 8) extra) :=
  ((store_changesIn (by simp)).trans (storeWord_changesIn (by simp))).trans
    (storeWord_changesIn (by simp))

theorem word_resize (m : Nat → UInt8) (extra : Nat) (layout : udp = ip + 4 ∨ ip + 8 ≤ udp) :
    word (resize m ip udp (udp + 8) extra) (ip + 2) = (word m (ip + 2) + extra) % 65536 ∧
      word (resize m ip udp (udp + 8) extra) (udp + 4) = (word m (udp + 4) + extra) % 65536 := by
  have cleared : ChangesIn [(udp + 20, 4)] m (store m (udp + 8 + 12) [0, 0, 0, 0]) :=
    store_changesIn (by simp)
  have totLen := word_of_changesIn (a := ip + 2) cleared (by simp; omega)
  have udpLen := word_of_changesIn (a := udp + 4) cleared (by simp)
  constructor
  · rw [resize, word_storeWord_apart (by omega), word_storeWord, totLen]
  · rw [resize, word_storeWord, word_storeWord_apart (by omega), udpLen]

/-! ## Options before the END -/

variable {tail opts : Nat} {l : List Tlv}

/-- The option that is put into a packet, if one is. -/
def optIf (b : Bool) (t : Tlv) : List Tlv := if b then [t] else []

theorem putOptIf_ok (b : Bool) {t : Tlv} (four : t.data.length = 4)
    (proper : (Element.tlv t).Proper dhcpOptPad dhcpOptEnd)
    (options : dhcpOptions m tail opts = l.map .tlv ++ [Element.stop])
    (room : opts + (l.map Tlv.size).sum + optIpSize b < tail) :
    ∃ m', putOptIf b m tail opts t.id t.data = .ok m' ∧
      dhcpOptions m' tail opts = (l ++ optIf b t).map .tlv ++ [Element.stop] ∧
      ChangesIn [(opts + (l.map Tlv.size).sum, if b then 7 else 0)] m m' := by
  cases b with
  | false =>
    refine ⟨m, rfl, ?_, ChangesIn.refl _ m⟩
    rw [optIf, if_neg Bool.false_ne_true, List.append_nil]
    exact options
  | true =>
    have size : t.size = 6 := by rw [Tlv.size, four]
    have encoded : t.id :: 4 :: t.data = t.encode := by
      rw [Tlv.encode, four]
      rfl
    have put := findOpt_end_of_options options
    obtain ⟨others, -, bytes, -⟩ := options_up_to_end options
    have long : (t.encode ++ [dhcpOptEnd]).length = t.size + 1 := by simp
    have written := slice_store (m := m) (a := opts + (l.map Tlv.size).sum) long
    rw [slice_append] at written
    have option := List.append_inj_left written (by simp)
    have last := List.append_inj_right written (by simp)
    have sum : ((l ++ optIf true t).map Tlv.size).sum = (l.map Tlv.size).sum + t.size := by
      rw [optIf, if_pos rfl, List.map_append, List.sum_append, List.map_singleton,
        List.sum_singleton]
    refine ⟨store m (opts + (l.map Tlv.size).sum) (t.encode ++ [dhcpOptEnd]), ?_, ?_, ?_⟩
    · rw [putOptIf, if_pos rfl, putOpt, put, encoded]
    · apply options_of_bytes
      · rw [optIf, if_pos rfl, List.forall_mem_append, List.forall_mem_singleton]
        exact ⟨others, proper⟩
      · rw [sum, size]
        exact room
      · rw [sum, slice_append, slice_store_of_disjoint (.inl (Nat.le_refl _)), bytes, option,
          List.flatMap_append, optIf, if_pos rfl, List.flatMap_singleton]
      · rw [sum, ← Nat.add_assoc]
        exact (List.cons.inj last).1
    · apply store_changesIn
      rw [long, size]
      exact List.mem_singleton_self _

/-- Options up to an END stay what they are when more bytes come after them. -/
theorem options_longer {tail' : Nat}
    (options : dhcpOptions m tail opts = l.map .tlv ++ [Element.stop])
    (same : ∀ j, opts ≤ j → j < tail → m' j = m j) (le : tail ≤ tail') :
    dhcpOptions m' tail' opts = l.map .tlv ++ [Element.stop] := by
  obtain ⟨proper, lt, bytes, last⟩ := options_up_to_end options
  apply options_of_bytes proper (Nat.lt_of_lt_of_le lt le)
  · rw [← bytes]
    exact slice_congr fun j low high => same j low (by omega)
  · rw [same _ (Nat.le_add_right ..) lt, last]

theorem length_optIf (b : Bool) (t : Tlv) : 6 * (optIf b t).length = optIpSize b := by
  cases b <;> rfl

theorem sum_optIf (b : Bool) {t : Tlv} (four : t.data.length = 4) :
    ((optIf b t).map Tlv.size).sum = optIpSize b := by
  cases b with
  | false => rfl
  | true => simp [optIf, optIpSize, Tlv.size, four]

theorem putOptIf_changesIn {b b' : Bool} {a : Nat} {m₁ m₂ : Nat → UInt8} (t t' : Tlv)
    (first : ChangesIn [(a, if b then 7 else 0)] m m₁)
    (second : ChangesIn [(a + optIpSize b, if b' then 7 else 0)] m₁ m₂) :
    ChangesIn [addedRange a (optIf b t ++ optIf b' t')] m m₂ := by
  cases b with
  | false =>
    cases b' with
    | false => exact (first.widen (Nat.le_refl _) (Nat.le_refl _)).trans second
    | true => exact (first.widen (Nat.le_refl _) (Nat.le_add_right ..)).trans second
  | true =>
    cases b' with
    | false => exact first.trans (second.widen (Nat.le_add_right ..) (Nat.le_succ _))
    | true =>
      have shorter : 7 ≤ 13 := by decide
      exact (first.widen (Nat.le_refl _) (Nat.add_le_add_left shorter a)).trans
        (second.widen (Nat.le_add_right ..) (Nat.le_refl _))

/-- What the packet is before its headers are finished. -/
structure Added (skb : SkBuff) (ip extra : Nat) (l added : List Tlv) (m : Nat → UInt8) : Prop where
  codes : (added.map Tlv.id).Sublist [dhcpOptReqIp, dhcpOptSrvId]
  addresses : ∀ t ∈ added, t.data.length = 4
  size : 6 * added.length = extra
  options : dhcpOptions m (skb.len + extra) (dhcpOpts skb.mem ip) =
    (l ++ added).map .tlv ++ [Element.stop]
  frame : ChangesIn [addedRange (dhcpOpts skb.mem ip + (l.map Tlv.size).sum) added,
    (udpHeader skb.mem ip + 18, 2), (udpHeader skb.mem ip + 6, 2)] skb.mem m

theorem dhcpReqRewrite_adds (sums : Checksums) {adds : Adds}
    (options : dhcpOptions skb.mem skb.len (dhcpOpts skb.mem ip) = l.map .tlv ++ [Element.stop])
    (room : adds.extraSize ≤ skb.tailroom) :
    ∃ m added, dhcpReqRewrite sums skb ip adds.extraSize adds = .ok
        { skb with
          mem := recalculate sums (resize m ip (udpHeader skb.mem ip) (udpHeader skb.mem ip + 8)
            adds.extraSize) ip (udpHeader skb.mem ip)
          len := skb.len + adds.extraSize
          tailroom := skb.tailroom - adds.extraSize } ∧
      Added skb ip adds.extraSize l added m := by
  have flags : ChangesIn [(udpHeader skb.mem ip + 18, 2), (udpHeader skb.mem ip + 6, 2)] skb.mem
      (setBroadcast skb.mem (udpHeader skb.mem ip) (dhcpHeader skb.mem ip)) :=
    setBroadcast_changesIn skb.mem (udpHeader skb.mem ip)
  have lt := (options_up_to_end options).2.1
  have longer : dhcpOptions (setBroadcast skb.mem (udpHeader skb.mem ip) (dhcpHeader skb.mem ip))
      (skb.len + adds.extraSize) (dhcpOpts skb.mem ip) = l.map .tlv ++ [Element.stop] := by
    apply options_longer options _ (Nat.le_add_right ..)
    intro j low high
    apply flags j
    simp only [dhcpOpts, dhcpHeader] at low
    simp [Outside]
    omega
  generalize eq : setBroadcast skb.mem (udpHeader skb.mem ip) (dhcpHeader skb.mem ip) = m
    at flags longer
  have proper : dhcpOptReqIp ≠ dhcpOptPad ∧ dhcpOptReqIp ≠ dhcpOptEnd := by decide
  have proper' : dhcpOptSrvId ≠ dhcpOptPad ∧ dhcpOptSrvId ≠ dhcpOptEnd := by decide
  have sizes : adds.extraSize = optIpSize adds.reqIp + optIpSize adds.srvId := rfl
  let first : Tlv := ⟨dhcpOptReqIp, ciaddr m (dhcpHeader skb.mem ip), by simp [ciaddr]⟩
  have four : first.data.length = 4 := slice_length ..
  obtain ⟨m₁, put₁, options₁, frame₁⟩ := putOptIf_ok adds.reqIp four proper longer (by omega)
  let second : Tlv := ⟨dhcpOptSrvId, daddr m₁ ip, by simp [daddr]⟩
  have four' : second.data.length = 4 := slice_length ..
  have sum₁ := sum_optIf adds.reqIp four
  obtain ⟨m₂, put₂, options₂, frame₂⟩ := putOptIf_ok adds.srvId four' proper' options₁
    (by rw [List.map_append, List.sum_append, sum₁]; omega)
  refine ⟨m₂, optIf adds.reqIp first ++ optIf adds.srvId second, ?_, ?_, ?_, ?_, ?_, ?_⟩
  · rw [dhcpReqRewrite]
    change putOptIf adds.reqIp m _ _ dhcpOptReqIp (ciaddr m _) = _ at put₁
    change putOptIf adds.srvId m₁ _ _ dhcpOptSrvId (daddr m₁ ip) = _ at put₂
    simp only [eq, skbPut, if_pos room, put₁, put₂, bind, Except.bind, pure, Except.pure]
    rfl
  · cases adds.reqIp <;> cases adds.srvId <;> simp [optIf, first, second]
  · intro t mem
    rcases List.mem_append.1 mem with mem | mem
    · cases h : adds.reqIp <;> simp [optIf, h] at mem
      exact mem ▸ four
    · cases h : adds.srvId <;> simp [optIf, h] at mem
      exact mem ▸ four'
  · rw [List.length_append, Nat.mul_add, length_optIf, length_optIf, sizes]
  · rw [← List.append_assoc]
    exact options₂
  · rw [List.map_append, List.sum_append, sum₁, ← Nat.add_assoc] at frame₂
    have written := putOptIf_changesIn first second frame₁ frame₂
    exact (flags.of_subset (List.subset_cons_self ..)).trans (written.of_subset (by simp))

theorem dhcpReqRewrite_none (sums : Checksums) {extra : Nat} (room : extra ≤ skb.tailroom) :
    dhcpReqRewrite sums skb ip extra .none = .ok
      { skb with
        mem := recalculate sums (resize (setBroadcast skb.mem (udpHeader skb.mem ip)
          (udpHeader skb.mem ip + 8)) ip (udpHeader skb.mem ip) (udpHeader skb.mem ip + 8) 0) ip
          (udpHeader skb.mem ip)
        len := skb.len + extra
        tailroom := skb.tailroom - extra } := by
  rw [dhcpReqRewrite]
  simp only [skbPut, if_pos room]
  rfl

theorem dhcpReqRewrite_error (sums : Checksums) {extra : Nat} (adds : Adds)
    (more : skb.tailroom < extra) :
    dhcpReqRewrite sums skb ip extra adds = .error .skbOverPanic := by
  rw [dhcpReqRewrite]
  simp only [skbPut, if_neg (Nat.not_le.2 more)]
  rfl

/-! ## The packet that is returned -/

variable {added : List Tlv} {extra : Nat}

/-- The sizes grow by what the headers are told. -/
theorem words_of_finished (sums : Checksums) (extra : Nat) (layout : udp = ip + 4 ∨ ip + 8 ≤ udp)
    {a : Nat} (behind : udp + 20 ≤ a) {n : Nat}
    (frame : ChangesIn [(a, n), (udp + 18, 2), (udp + 6, 2)] m m') :
    word (recalculate sums (resize m' ip udp (udp + 8) extra) ip udp) (ip + 2) =
        (word m (ip + 2) + extra) % 65536 ∧
      word (recalculate sums (resize m' ip udp (udp + 8) extra) ip udp) (udp + 4) =
        (word m (udp + 4) + extra) % 65536 := by
  have checks := recalculate_changesIn sums (resize m' ip udp (udp + 8) extra) ip udp
  obtain ⟨totLen, udpLen⟩ := word_resize m' extra layout
  have totLen' := word_of_changesIn (a := ip + 2) frame (by simp; omega)
  have udpLen' := word_of_changesIn (a := udp + 4) frame (by simp; omega)
  constructor
  · rw [word_of_changesIn checks (by simp; omega), totLen, totLen']
  · rw [word_of_changesIn checks (by simp; omega), udpLen, udpLen']

/-- What is done to the headers leaves the options alone. -/
theorem options_of_finished (sums : Checksums) (layout : udp = ip + 4 ∨ ip + 8 ≤ udp)
    (behind : udp + 24 ≤ opts) :
    dhcpOptions (recalculate sums (resize m ip udp (udp + 8) extra) ip udp) tail opts =
      dhcpOptions m tail opts := by
  have checks := recalculate_changesIn sums (resize m ip udp (udp + 8) extra) ip udp
  have sizes := resize_changesIn m ip udp extra
  rw [dhcpOptions, checks.slice_eq (by simp; omega), sizes.slice_eq (by simp; omega), dhcpOptions]

/-- What is done to the headers changes some of their fields. -/
theorem finished_changesIn (sums : Checksums) {r : Nat × Nat}
    (frame : ChangesIn [r, (udp + 18, 2), (udp + 6, 2)] m m') :
    ChangesIn (r :: rewrittenFields ip udp) m
      (recalculate sums (resize m' ip udp (udp + 8) extra) ip udp) := by
  have checks := recalculate_changesIn sums (resize m' ip udp (udp + 8) extra) ip udp
  have sizes := resize_changesIn m' ip udp extra
  have fields := frame.of_subset (show _ ⊆ r :: rewrittenFields ip udp by simp [rewrittenFields])
  have resized := fields.trans (sizes.of_subset (by simp [rewrittenFields]))
  exact resized.trans (checks.of_subset (by simp [rewrittenFields]))

theorem sizes_map_tlv (l : List Tlv) :
    Element.sizes (l.map .tlv) = (l.map Tlv.size).sum := by
  rw [Element.sizes, List.map_map]
  rfl

/-- A request with options before its END is one that they were added to. -/
theorem extends_of_added (sums : Checksums) (accepted : Accepted skb.mem ip) {skb' : SkBuff}
    (h : Added skb ip extra l added m)
    (options : dhcpOptions skb.mem skb.len (dhcpOpts skb.mem ip) = l.map .tlv ++ [Element.stop])
    (mem : skb'.mem = recalculate sums (resize m ip (udpHeader skb.mem ip)
      (udpHeader skb.mem ip + 8) extra) ip (udpHeader skb.mem ip))
    (len : skb'.len = skb.len + extra)
    (totLen : word skb.mem (ip + 2) + extra < 65536)
    (udpLen : word skb.mem (udpHeader skb.mem ip + 4) + extra < 65536) :
    Extends skb skb' ip (l.map .tlv) added [.stop] := by
  have layout := udpHeader_of_accepted accepted
  have opts : dhcpOpts skb.mem ip = udpHeader skb.mem ip + 248 := rfl
  have words := words_of_finished sums extra layout (by omega) h.frame
  rw [← mem] at words
  constructor
  case codes => exact h.codes
  case addresses => exact h.addresses
  case len => rw [len, h.size]
  case totLen => rw [words.1, Nat.mod_eq_of_lt totLen, h.size]
  case udpLen => rw [words.2, Nat.mod_eq_of_lt udpLen, h.size]
  case options => exact options
  case options' =>
    rw [mem, len, options_of_finished sums layout (by omega), h.options, List.map_append]
  case ended => exact fun _ => rfl
  case frame =>
    intro j _ out
    rw [sizes_map_tlv] at out
    rw [mem]
    exact finished_changesIn sums h.frame j out

/-- A request whose headers alone were changed. -/
theorem extends_nil (sums : Checksums) (accepted : Accepted skb.mem ip) {skb' : SkBuff}
    (mem : skb'.mem = recalculate sums (resize (setBroadcast skb.mem (udpHeader skb.mem ip)
      (udpHeader skb.mem ip + 8)) ip (udpHeader skb.mem ip) (udpHeader skb.mem ip + 8) 0) ip
        (udpHeader skb.mem ip))
    (len : skb'.len = skb.len) :
    Extends skb skb' ip (dhcpOptions skb.mem skb.len (dhcpOpts skb.mem ip)) [] [] := by
  have layout := udpHeader_of_accepted accepted
  have opts : dhcpOpts skb.mem ip = udpHeader skb.mem ip + 248 := rfl
  have flags := setBroadcast_changesIn skb.mem (udpHeader skb.mem ip)
  have frame := flags.of_subset (List.subset_cons_self (dhcpOpts skb.mem ip, 0) _)
  have words := words_of_finished sums 0 layout (by omega) frame
  rw [← mem] at words
  constructor
  case codes => exact List.nil_sublist _
  case addresses => exact nofun
  case len => exact len
  case totLen => exact words.1.trans (Nat.mod_eq_of_lt (word_lt _ _))
  case udpLen => exact words.2.trans (Nat.mod_eq_of_lt (word_lt _ _))
  case options => exact (List.append_nil _).symm
  case options' =>
    rw [mem, len, options_of_finished sums layout (by omega), dhcpOptions,
      flags.slice_eq (by simp; omega)]
    simp [dhcpOptions]
  case ended => exact fun ne => absurd rfl ne
  case frame =>
    intro j _ out
    rw [mem]
    refine finished_changesIn sums frame j (List.forall_mem_cons.2 ⟨?_, ?_⟩)
    · exact (Nat.lt_or_ge ..).imp_right id
    · exact fun r mem => out r (List.mem_cons_of_mem _ mem)

/-! ## The whole rewriting -/

/-- A request that no option is put into is kept if it does not grow. -/
theorem rewrite_none_keeps (sums : Checksums) (accepted : Accepted skb.mem ip) :
    Keeps skb ip (dhcpReqRewrite sums skb ip extra .none) ↔ extra = 0 := by
  constructor
  · rintro ⟨skb', before, added, after, ok, kept⟩
    by_cases room : extra ≤ skb.tailroom
    · rw [dhcpReqRewrite_none sums room] at ok
      cases ok
      have layout := udpHeader_of_accepted accepted
      have flags := setBroadcast_changesIn skb.mem (udpHeader skb.mem ip)
      have frame := flags.of_subset (List.subset_cons_self (udpHeader skb.mem ip + 20, 0) _)
      have words := words_of_finished sums 0 layout (Nat.le_refl _) frame
      have totLen := kept.totLen
      rw [words.1, Nat.add_zero, Nat.mod_eq_of_lt (word_lt ..)] at totLen
      have nothing : 6 * added.length = 0 := Nat.left_eq_add.1 totLen
      have len : skb.len + extra = skb.len + 6 * added.length := kept.len
      rw [nothing] at len
      exact Nat.add_left_cancel len
    · rw [dhcpReqRewrite_error sums _ (Nat.not_le.1 room)] at ok
      cases ok
  · rintro rfl
    exact ⟨_, _, _, _, dhcpReqRewrite_none sums (Nat.zero_le _), extends_nil sums accepted rfl rfl⟩

theorem len_of_rewrite {sums : Checksums} {adds : Adds} {skb' : SkBuff}
    (ok : dhcpReqRewrite sums skb ip extra adds = .ok skb') : skb'.len = skb.len + extra := by
  by_cases room : extra ≤ skb.tailroom
  · rw [dhcpReqRewrite] at ok
    simp only [skbPut, if_pos room, bind, Except.bind, pure, Except.pure] at ok
    split at ok
    · cases ok
    · split at ok
      · cases ok
      · cases ok
        rfl
  · rw [dhcpReqRewrite_error sums _ (Nat.not_le.1 room)] at ok
    cases ok

/-- A request that options are put into is kept if there is room for them, before an END, and the
sizes of the headers can grow. -/
theorem rewrite_adds_keeps (sums : Checksums) {adds : Adds} (accepted : Accepted skb.mem ip)
    (some : adds.extraSize ≠ 0)
    (found : ∀ before,
      dhcpOptions skb.mem skb.len (dhcpOpts skb.mem ip) = before ++ [Element.stop] →
        ∃ l : List Tlv, before = l.map .tlv) :
    Keeps skb ip (dhcpReqRewrite sums skb ip adds.extraSize adds) ↔
      adds.extraSize ≤ skb.tailroom ∧
      (∃ l : List Tlv,
        dhcpOptions skb.mem skb.len (dhcpOpts skb.mem ip) = l.map .tlv ++ [Element.stop]) ∧
      word skb.mem (ip + 2) + adds.extraSize < 65536 ∧
      word skb.mem (udpHeader skb.mem ip + 4) + adds.extraSize < 65536 := by
  constructor
  · rintro ⟨skb', before, added, after, ok, kept⟩
    by_cases room : adds.extraSize ≤ skb.tailroom
    case neg =>
      rw [dhcpReqRewrite_error sums _ (Nat.not_le.1 room)] at ok
      cases ok
    have grown : adds.extraSize = 6 * added.length :=
      Nat.add_left_cancel ((len_of_rewrite ok).symm.trans kept.len)
    have nonempty : added ≠ [] := by
      rintro rfl
      exact some grown
    have options := kept.options
    rw [kept.ended nonempty] at options
    obtain ⟨l, rfl⟩ := found before options
    obtain ⟨m, added', ok', more⟩ := dhcpReqRewrite_adds sums options room
    rw [ok'] at ok
    cases ok
    have layout := udpHeader_of_accepted accepted
    have opts : dhcpOpts skb.mem ip = udpHeader skb.mem ip + 248 := rfl
    have words := words_of_finished sums adds.extraSize layout (by omega) more.frame
    have totLen := kept.totLen
    have udpLen := kept.udpLen
    rw [words.1] at totLen
    rw [words.2] at udpLen
    exact ⟨room, ⟨l, options⟩, lt_of_grown totLen grown, lt_of_grown udpLen grown⟩
  · rintro ⟨room, ⟨l, ended⟩, totLen, udpLen⟩
    obtain ⟨m, added, ok, more⟩ := dhcpReqRewrite_adds sums ended room
    exact ⟨_, _, _, _, ok, extends_of_added sums accepted more ended rfl rfl totLen udpLen⟩

/-! ## Copies -/

/-- A buffer with the same packet. -/
structure Copy (skb nskb : SkBuff) : Prop where
  len : nskb.len = skb.len
  same : ∀ j < skb.len, nskb.mem j = skb.mem j

theorem Copy.refl (skb : SkBuff) : Copy skb skb := ⟨rfl, fun _ _ => rfl⟩

/-- A copy is taken, or the packet stays in its buffer. -/
theorem skbCopyExpand_copy (room : Option Room) (skb : SkBuff) (extra : Nat) :
    Copy skb ((skbCopyExpand room skb extra).getD skb) := by
  cases room with
  | none => exact Copy.refl skb
  | some r => exact ⟨rfl, fun j lt => if_pos lt⟩

theorem skbUnshare_copy (room : Option Room) (skb : SkBuff) :
    Copy skb ((skbUnshare room skb).getD skb) := by
  rw [skbUnshare]
  split
  · exact skbCopyExpand_copy ..
  · exact Copy.refl skb

theorem skbCopyExpand_tailroom (room : Option Room) (skb : SkBuff) (extra : Nat) :
    extra ≤ ((skbCopyExpand room skb extra).getD skb).tailroom ↔
      room.isSome ∨ extra ≤ skb.tailroom := by
  cases room with
  | none => simp [skbCopyExpand]
  | some r => simp [skbCopyExpand]

variable {nskb : SkBuff}

theorem Copy.udpHeader_eq (h : Copy skb nskb) (req : DhcpReq skb ip) :
    udpHeader nskb.mem ip = udpHeader skb.mem ip := by
  have whole := req.whole
  have opts : dhcpOpts skb.mem ip = udpHeader skb.mem ip + 248 := rfl
  have udp : udpHeader skb.mem ip = ip + (skb.mem ip &&& 15).toNat * 4 := rfl
  rw [udpHeader, h.same ip (by omega), udpHeader]

theorem Copy.word_eq (h : Copy skb nskb) {a : Nat} (within : a + 2 ≤ skb.len) :
    word nskb.mem a = word skb.mem a := by
  rw [word, word]
  exact congrArg _ (slice_congr fun j _ high => h.same j (by omega))

theorem Copy.options_eq (h : Copy skb nskb) (opts : Nat) :
    dhcpOptions nskb.mem nskb.len opts = dhcpOptions skb.mem skb.len opts := by
  rw [dhcpOptions, h.len, dhcpOptions]
  exact congrArg _ (slice_congr fun j _ high => h.same j (by omega))

/-- What is made of a copy is made of the request. -/
theorem Copy.extends_iff (h : Copy skb nskb) (req : DhcpReq skb ip) {skb' : SkBuff}
    {before after : List Element} :
    Extends nskb skb' ip before added after ↔ Extends skb skb' ip before added after := by
  have udp := h.udpHeader_eq req
  have whole := req.whole
  have opts : dhcpOpts skb.mem ip = udpHeader skb.mem ip + 248 := rfl
  have layout := udpHeader_of_accepted req.accepted
  have totLen := h.word_eq (a := ip + 2) (by omega)
  have udpLen := h.word_eq (a := udpHeader skb.mem ip + 4) (by omega)
  have opts' : dhcpOpts nskb.mem ip = dhcpOpts skb.mem ip := by
    rw [dhcpOpts, dhcpHeader, udp, dhcpOpts, dhcpHeader]
  constructor
  · rintro ⟨codes, addresses, len, tot, udp', options, options', ended, frame⟩
    rw [opts'] at options options' frame
    rw [udp] at udp' frame
    refine ⟨codes, addresses, h.len ▸ len, totLen ▸ tot, udpLen ▸ udp', ?_, options', ended, ?_⟩
    · exact (h.options_eq _).symm.trans options
    · exact fun j lt out => (frame j (h.len ▸ lt) out).trans (h.same j lt)
  · rintro ⟨codes, addresses, len, tot, udp', options, options', ended, frame⟩
    refine ⟨codes, addresses, h.len ▸ len, totLen ▸ tot, ?_, ?_, ?_, ended, ?_⟩
    · rw [udp, udpLen]
      exact udp'
    · rw [opts', h.options_eq]
      exact options
    · rw [opts']
      exact options'
    · intro j lt out
      rw [opts', udp] at out
      rw [h.len] at lt
      exact (frame j lt out).trans (h.same j lt).symm

theorem Copy.keeps_iff (h : Copy skb nskb) (req : DhcpReq skb ip) {r : Except DhcpFault SkBuff} :
    Keeps nskb ip r ↔ Keeps skb ip r := by
  simp only [Keeps, h.extends_iff req]

theorem Copy.accepted (h : Copy skb nskb) (req : DhcpReq skb ip) : Accepted nskb.mem ip := by
  obtain ⟨protocol, dest, op, htype, magic⟩ := req.accepted
  have udp := h.udpHeader_eq req
  have whole := req.whole
  have opts : dhcpOpts skb.mem ip = udpHeader skb.mem ip + 248 := rfl
  have dhcp : dhcpHeader skb.mem ip = udpHeader skb.mem ip + 8 := rfl
  have dhcp' : dhcpHeader nskb.mem ip = dhcpHeader skb.mem ip := by
    rw [dhcpHeader, udp, dhcp]
  have layout := udpHeader_of_accepted req.accepted
  refine ⟨?_, ?_, ?_, ?_, ?_⟩
  · rw [h.same _ (by omega), protocol]
  · rw [udp, h.word_eq (by omega), dest]
  · rw [dhcp', h.same _ (by omega), op]
  · rw [dhcp', h.same _ (by omega), htype]
  · rw [dhcp', ← magic]
    exact slice_congr fun j _ high => h.same j (by omega)

/-- The same of a request that was copied to a buffer with more room. -/
theorem copied_adds_keeps (sums : Checksums) (room : Option Room) {adds : Adds}
    (req : DhcpReq skb ip) (some : adds.extraSize ≠ 0)
    (found : ∀ before,
      dhcpOptions skb.mem skb.len (dhcpOpts skb.mem ip) = before ++ [Element.stop] →
        ∃ l : List Tlv, before = l.map .tlv) :
    Keeps skb ip (dhcpReqRewrite sums ((skbCopyExpand room skb adds.extraSize).getD skb) ip
        adds.extraSize adds) ↔
      (room.isSome ∨ adds.extraSize ≤ skb.tailroom) ∧
      (∃ l : List Tlv,
        dhcpOptions skb.mem skb.len (dhcpOpts skb.mem ip) = l.map .tlv ++ [Element.stop]) ∧
      word skb.mem (ip + 2) + adds.extraSize < 65536 ∧
      word skb.mem (udpHeader skb.mem ip + 4) + adds.extraSize < 65536 := by
  have copy := skbCopyExpand_copy room skb adds.extraSize
  have layout := udpHeader_of_accepted req.accepted
  have whole := req.whole
  have behind : dhcpOpts skb.mem ip = udpHeader skb.mem ip + 248 := rfl
  have opts : dhcpOpts ((skbCopyExpand room skb adds.extraSize).getD skb).mem ip =
      dhcpOpts skb.mem ip := by
    rw [dhcpOpts, dhcpHeader, copy.udpHeader_eq req, behind]
  have options := copy.options_eq (dhcpOpts skb.mem ip)
  rw [← copy.keeps_iff req, rewrite_adds_keeps sums (copy.accepted req) some,
    skbCopyExpand_tailroom, copy.udpHeader_eq req, copy.word_eq (by omega), copy.word_eq (by omega),
    opts, options]
  rw [opts, options]
  exact found

/-! ## When the rewriting is right -/

/-- The options with addresses that a request has not. -/
def lacking (skb : SkBuff) (opts : Nat) : List UInt8 :=
  [dhcpOptReqIp, dhcpOptSrvId].filter fun optCode => (findOpt skb opts optCode).isNone

/-- A request to one server that options can be put into. -/
structure TakesOptions (skb : SkBuff) (opts : Nat) : Prop where
  ends : (findOpt skb opts dhcpOptEnd).isSome
  request : ∃ hdr, findOpt skb opts dhcpOptMsgType = some hdr ∧ skb.mem (hdr + 2) = 3
  lacks : lacking skb opts ≠ []
  short : skb.len + 6 * (lacking skb opts).length ≤ 65535

/-- A broadcast request is in a buffer that is not given back. Any other one takes options, for
which there is room, before an END in the packet, and by which the sizes in the headers can grow;
or there is no room behind it at all. -/
def Suits (room : Option Room) (skb : SkBuff) (ip : Nat) : Prop :=
  let opts := dhcpOpts skb.mem ip
  let extra := 6 * (lacking skb opts).length
  if daddr skb.mem ip = inaddrBroadcast then ¬(skb.cloned ∧ skb.users = 1)
  else
    TakesOptions skb opts ∧ (room.isSome ∨ extra ≤ skb.tailroom) ∧
      (∃ l : List Tlv, dhcpOptions skb.mem skb.len opts = l.map .tlv ++ [Element.stop]) ∧
      word skb.mem (ip + 2) + extra < 65536 ∧
      word skb.mem (udpHeader skb.mem ip + 4) + extra < 65536 ∨
    ¬TakesOptions skb opts ∧ skb.tailroom = 0

theorem lacking_length (skb : SkBuff) (opts : Nat) : 6 * (lacking skb opts).length =
    optIpSize (findOpt skb opts dhcpOptReqIp).isNone +
      optIpSize (findOpt skb opts dhcpOptSrvId).isNone := by
  cases first : (findOpt skb opts dhcpOptReqIp).isNone <;>
    cases second : (findOpt skb opts dhcpOptSrvId).isNone <;>
      simp [lacking, first, second, optIpSize]

theorem addOpts_of_takes (h : TakesOptions skb opts) :
    (addOpts skb opts).extraSize = 6 * (lacking skb opts).length := by
  obtain ⟨ends, ⟨hdr, request, type⟩, -, short⟩ := h
  obtain ⟨e, ends⟩ := Option.isSome_iff_exists.1 ends
  rw [lacking_length] at short ⊢
  have adds : addOpts skb opts =
      ⟨(findOpt skb opts dhcpOptReqIp).isNone, (findOpt skb opts dhcpOptSrvId).isNone⟩ := by
    rw [addOpts, ends, request]
    dsimp only
    rw [if_neg (not_not.2 type)]
    exact if_neg (Nat.not_lt.2 short)
  rw [adds]
  rfl

theorem addOpts_of_not_takes (h : ¬TakesOptions skb opts) : addOpts skb opts = .none := by
  rw [addOpts]
  split
  case h_2 => rfl
  case h_1 e hdr ends request =>
    split
    case isTrue => rfl
    case isFalse type =>
      dsimp only
      split
      case isTrue => rfl
      case isFalse short =>
        have none : lacking skb opts = [] := by
          by_contra lacks
          refine h ⟨by rw [ends]; rfl, ⟨hdr, request, not_not.1 type⟩, lacks, ?_⟩
          rw [lacking_length]
          exact Nat.not_lt.1 short
        have sizes := lacking_length skb opts
        rw [none] at sizes
        revert sizes
        cases (findOpt skb opts dhcpOptReqIp).isNone <;>
          cases (findOpt skb opts dhcpOptSrvId).isNone <;> simp [optIpSize, Adds.none]

/-- A broadcast request is rewritten in place, or in a copy of its size. -/
theorem broadcast_keeps (sums : Checksums) (room : Option Room) (req : DhcpReq skb ip)
    (broadcast : daddr skb.mem ip = inaddrBroadcast) :
    Keeps skb ip (dhcpReqUpdate sums room skb ip) ↔ ¬(skb.cloned ∧ skb.users = 1) := by
  rw [dhcpReqUpdate, if_neg (not_not.2 req.accepted), if_pos broadcast]
  split
  case isTrue freed => exact iff_of_false (by rintro ⟨_, _, _, _, ⟨⟩, _⟩) (not_not.2 freed)
  case isFalse kept =>
    have copy := skbUnshare_copy room skb
    rw [← copy.keeps_iff req, rewrite_none_keeps sums (copy.accepted req)]
    exact iff_of_true rfl kept

/-- The room behind a request that takes no options becomes part of it. -/
theorem unneeded_room_keeps (sums : Checksums) (room : Option Room) (req : DhcpReq skb ip)
    (unicast : daddr skb.mem ip ≠ inaddrBroadcast)
    (not : ¬TakesOptions skb (dhcpOpts skb.mem ip)) :
    Keeps skb ip (dhcpReqUpdate sums room skb ip) ↔ skb.tailroom = 0 := by
  have copy := skbCopyExpand_copy room skb skb.tailroom
  have zero : Adds.none.extraSize = 0 := rfl
  rw [dhcpReqUpdate, if_neg (not_not.2 req.accepted), if_neg unicast]
  dsimp only
  rw [addOpts_of_not_takes not, if_pos zero, ← copy.keeps_iff req,
    rewrite_none_keeps sums (copy.accepted req)]

/-- Options are put into a request that takes them. -/
theorem takes_keeps (sums : Checksums) (room : Option Room) (req : DhcpReq skb ip)
    (unicast : daddr skb.mem ip ≠ inaddrBroadcast)
    (takes : TakesOptions skb (dhcpOpts skb.mem ip)) :
    Keeps skb ip (dhcpReqUpdate sums room skb ip) ↔
      (room.isSome ∨ 6 * (lacking skb (dhcpOpts skb.mem ip)).length ≤ skb.tailroom) ∧
      (∃ l : List Tlv,
        dhcpOptions skb.mem skb.len (dhcpOpts skb.mem ip) = l.map .tlv ++ [Element.stop]) ∧
      word skb.mem (ip + 2) + 6 * (lacking skb (dhcpOpts skb.mem ip)).length < 65536 ∧
      word skb.mem (udpHeader skb.mem ip + 4) +
        6 * (lacking skb (dhcpOpts skb.mem ip)).length < 65536 := by
  have size := addOpts_of_takes takes
  have some : (addOpts skb (dhcpOpts skb.mem ip)).extraSize ≠ 0 := by
    rw [size]
    have := List.length_pos_iff.2 takes.lacks
    omega
  rw [dhcpReqUpdate, if_neg (not_not.2 req.accepted), if_neg unicast, ← size]
  dsimp only
  rw [if_neg some]
  apply copied_adds_keeps sums room req some
  intro before options
  obtain ⟨e, ends⟩ := Option.isSome_iff_exists.1 takes.ends
  exact tlvs_of_found options ends

/-- A request becomes itself with options added just when it suits. -/
theorem dhcpReqUpdate_keeps_iff (sums : Checksums) (room : Option Room) {skb : SkBuff} {ip : Nat}
    (req : DhcpReq skb ip) :
    Keeps skb ip (dhcpReqUpdate sums room skb ip) ↔ Suits room skb ip := by
  rw [Suits]
  split
  case isTrue broadcast => exact broadcast_keeps sums room req broadcast
  case isFalse unicast =>
    by_cases takes : TakesOptions skb (dhcpOpts skb.mem ip)
    · rw [takes_keeps sums room req unicast takes]
      simp only [takes, true_and, not_true_eq_false, false_and, or_false]
    · rw [unneeded_room_keeps sums room req unicast takes]
      simp only [takes, false_and, not_false_eq_true, true_and, false_or]

/-- A BOOTP request in an Ethernet frame, with no option but the END, to an address of four equal
bytes. -/
def bootRequest (address : UInt8) (tailroom : Nat) : SkBuff where
  mem := ((List.replicate 14 0 ++
    [0x45, 0, 1, 13, 0, 0, 0, 0, 64, 17, 0, 0, 10, 0, 0, 2, address, address, address, address] ++
    [0, 68, 0, 67, 0, 249, 0, 0] ++ [1, 1, 6, 0] ++ List.replicate 232 0 ++
    [0x63, 0x82, 0x53, 0x63, dhcpOptEnd]).getD · 0)
  len := 283
  tailroom := tailroom
  cloned := false
  users := 1

def noChecksums : Checksums := ⟨fun _ => 0, fun _ _ _ _ => 0⟩

/-- A DHCPREQUEST to one server, with no other option and no room behind it. -/
def dhcpRequest : SkBuff where
  mem := ((List.replicate 14 0 ++
    [0x45, 0, 1, 16, 0, 0, 0, 0, 64, 17, 0, 0, 10, 0, 0, 2, 10, 0, 0, 1] ++
    [0, 68, 0, 67, 0, 252, 0, 0] ++ [1, 1, 6, 0] ++ List.replicate 232 0 ++
    [0x63, 0x82, 0x53, 0x63, dhcpOptMsgType, 1, 3, dhcpOptEnd]).getD · 0)
  len := 286
  tailroom := 0
  cloned := false
  users := 1

def msgTypeRequest : Tlv := ⟨dhcpOptMsgType, [3], by decide⟩

theorem dhcpRequest_options :
    dhcpOptions dhcpRequest.mem 286 282 = [msgTypeRequest].map .tlv ++ [Element.stop] := by
  have bytes : slice dhcpRequest.mem 282 (286 - 282) = msgTypeRequest.encode ++ [dhcpOptEnd] := by
    decide +kernel
  have proper : (Element.tlv msgTypeRequest).Proper dhcpOptPad dhcpOptEnd :=
    ⟨by decide, by decide⟩
  rw [dhcpOptions, bytes, elements_tlv msgTypeRequest proper, elements_stop]
  rfl

/-- It has no option but its type. -/
theorem dhcpRequest_lacks {optCode : UInt8} (notType : dhcpOptMsgType ≠ optCode)
    (notEnd : dhcpOptEnd ≠ optCode) : findOpt dhcpRequest 282 optCode = none := by
  obtain ⟨proper, lt, bytes, last⟩ := options_up_to_end dhcpRequest_options
  have others : ∀ t ∈ [msgTypeRequest],
      (Element.tlv t).Proper dhcpOptPad dhcpOptEnd ∧ t.id ≠ optCode := by
    intro t mem
    exact ⟨proper t mem, List.mem_singleton.1 mem ▸ notType⟩
  have passed := findOpt_over others (Nat.le_of_lt lt) bytes
  rw [findOpt_stopped (last ▸ notEnd) (.inl last)] at passed
  exact passed

theorem dhcpRequest_lacking : lacking dhcpRequest 282 = [dhcpOptReqIp, dhcpOptSrvId] := by
  rw [lacking]
  apply List.filter_eq_self.2
  rintro optCode mem
  rcases List.mem_pair.1 mem with rfl | rfl
  · rw [dhcpRequest_lacks (by decide) (by decide), Option.isNone_none]
  · rw [dhcpRequest_lacks (by decide) (by decide), Option.isNone_none]

theorem dhcpRequest_takesOptions : TakesOptions dhcpRequest 282 where
  ends := Option.isSome_iff_exists.2 ⟨_, findOpt_end_of_options dhcpRequest_options⟩
  request := ⟨282, by rw [findOpt, findOpt_found (by decide +kernel)], by decide +kernel⟩
  lacks := by
    rw [dhcpRequest_lacking]
    exact List.cons_ne_nil _ _
  short := by
    rw [dhcpRequest_lacking]
    decide

/-- A broadcast request is rewritten in place, and one to a server gets two options in a copy. -/
theorem dhcpReqUpdate_keeps_iff_bothKinds :
    Keeps (bootRequest 255 100) 14 (dhcpReqUpdate noChecksums none (bootRequest 255 100) 14) ∧
      Keeps dhcpRequest 14 (dhcpReqUpdate noChecksums (some ⟨fun _ => 0, 0⟩) dhcpRequest 14) := by
  have broadcast : daddr (bootRequest 255 100).mem 14 = inaddrBroadcast := by decide +kernel
  have suits : Suits none (bootRequest 255 100) 14 := by
    rw [Suits]
    exact (if_pos broadcast).symm ▸ by decide
  have unicast : daddr dhcpRequest.mem 14 ≠ inaddrBroadcast := by decide +kernel
  have opts : dhcpOpts dhcpRequest.mem 14 = 282 := by decide +kernel
  have suits' : Suits (some ⟨fun _ => 0, 0⟩) dhcpRequest 14 := by
    rw [Suits, if_neg unicast, opts, dhcpRequest_lacking]
    exact .inl ⟨dhcpRequest_takesOptions, .inl rfl, ⟨_, dhcpRequest_options⟩, by decide +kernel,
      by decide +kernel⟩
  exact ⟨(dhcpReqUpdate_keeps_iff noChecksums none ⟨by decide +kernel, by decide +kernel⟩).2 suits,
    (dhcpReqUpdate_keeps_iff noChecksums _ ⟨by decide +kernel, by decide +kernel⟩).2 suits'⟩

/-- A request to one server that takes no options grows by the room behind it. -/
theorem bootRequest_grows : ¬Keeps (bootRequest 10 100) 14
    (dhcpReqUpdate noChecksums none (bootRequest 10 100) 14) := by
  have req : DhcpReq (bootRequest 10 100) 14 := ⟨by decide +kernel, by decide +kernel⟩
  have unicast : daddr (bootRequest 10 100).mem 14 ≠ inaddrBroadcast := by decide +kernel
  have takes : ¬TakesOptions (bootRequest 10 100) (dhcpOpts (bootRequest 10 100).mem 14) := by
    rintro ⟨-, ⟨hdr, found, -⟩, -⟩
    rw [findOpt, findOpt_stopped (by decide +kernel) (.inl (by decide +kernel))] at found
    cases found
  rw [unneeded_room_keeps noChecksums none req unicast takes]
  decide

end Wave300.L2nat
