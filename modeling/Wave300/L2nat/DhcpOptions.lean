import Wave300.Lib.Memory
import Wave300.Lib.Options

/-!
# The options of a DHCP packet

`dhcp_req_find_opt` walks over the options of a packet, from the first to the one that is looked
for. It looks at the code of an option before it compares the address with the tail of the packet,
and it stops at a PAD.
-/

namespace Wave300.L2nat

open Wave300.Lib

def dhcpOptReqIp : UInt8 := 50
def dhcpOptMsgType : UInt8 := 53
def dhcpOptSrvId : UInt8 := 54
def dhcpOptPad : UInt8 := 0
def dhcpOptEnd : UInt8 := 255

/-- `dhcp_req_find_opt`: the addresses that it reads, and the address of the option. -/
def dhcpReqFindOpt (m : Nat → UInt8) (tail hdr : Nat) (optCode : UInt8) :
    List Nat × Option Nat :=
  if m hdr ≠ dhcpOptEnd ∧ m hdr ≠ dhcpOptPad ∧ m hdr ≠ optCode ∧ hdr < tail then
    let next := dhcpReqFindOpt m tail (hdr + (m (hdr + 1)).toNat + 2) optCode
    (hdr :: (hdr + 1) :: next.1, next.2)
  else ([hdr], if m hdr = optCode then some hdr else none)
termination_by tail - hdr
decreasing_by omega

variable {m : Nat → UInt8} {tail hdr : Nat} {optCode : UInt8}

theorem findOpt_found (here : m hdr = optCode) :
    dhcpReqFindOpt m tail hdr optCode = ([hdr], some hdr) := by
  rw [dhcpReqFindOpt, if_neg (by tauto), if_pos here]

theorem findOpt_stopped (other : m hdr ≠ optCode)
    (stop : m hdr = dhcpOptEnd ∨ m hdr = dhcpOptPad ∨ tail ≤ hdr) :
    dhcpReqFindOpt m tail hdr optCode = ([hdr], none) := by
  have stays : ¬(m hdr ≠ dhcpOptEnd ∧ m hdr ≠ dhcpOptPad ∧ m hdr ≠ optCode ∧ hdr < tail) := by
    rintro ⟨notEnd, notPad, -, lt⟩
    rcases stop with isEnd | isPad | ge
    · exact notEnd isEnd
    · exact notPad isPad
    · omega
  rw [dhcpReqFindOpt, if_neg stays, if_neg other]

theorem findOpt_next (other : m hdr ≠ optCode) (notEnd : m hdr ≠ dhcpOptEnd)
    (notPad : m hdr ≠ dhcpOptPad) (lt : hdr < tail) :
    dhcpReqFindOpt m tail hdr optCode =
      (hdr :: (hdr + 1) :: (dhcpReqFindOpt m tail (hdr + (m (hdr + 1)).toNat + 2) optCode).1,
        (dhcpReqFindOpt m tail (hdr + (m (hdr + 1)).toNat + 2) optCode).2) := by
  rw [dhcpReqFindOpt, if_pos ⟨notEnd, notPad, other, lt⟩]

/-- The code of the first option is read in any case. -/
theorem hdr_mem_reads : hdr ∈ (dhcpReqFindOpt m tail hdr optCode).1 := by
  rw [dhcpReqFindOpt]
  split
  · exact List.mem_cons_self
  · exact List.mem_singleton_self hdr

/-! ## The standard reading -/

/-- The options from an address to the tail of the packet. -/
def dhcpOptions (m : Nat → UInt8) (tail hdr : Nat) : List Element :=
  elements dhcpOptPad dhcpOptEnd (slice m hdr (tail - hdr))

def optCodeOf (x : Element) : UInt8 := x.code dhcpOptPad dhcpOptEnd

/-- How many bytes the option at an address takes. -/
def optSize (m : Nat → UInt8) (hdr : Nat) : Nat :=
  if m hdr = dhcpOptPad ∨ m hdr = dhcpOptEnd then 1 else (m (hdr + 1)).toNat + 2

/-- Only bytes of the packet are read, the option that is found is the first one with the code, and
it lies in the packet. -/
def FindsOpt (m : Nat → UInt8) (tail hdr : Nat) (optCode : UInt8) : Prop :=
  (∀ a ∈ (dhcpReqFindOpt m tail hdr optCode).1, a < tail) ∧
  (dhcpReqFindOpt m tail hdr optCode).2 =
    (Element.offset (optCodeOf · = optCode) (dhcpOptions m tail hdr)).map (hdr + ·) ∧
  ∀ found, (dhcpReqFindOpt m tail hdr optCode).2 = some found → found + optSize m found ≤ tail

/-- The walk comes, over options with other codes, to an option with the code, to an END, or to a
PAD after which no option has the code. -/
def Legible (optCode : UInt8) (options : List Element) : Prop :=
  ∃ before x after, options = before ++ x :: after ∧
    (∀ y ∈ before, ∃ t, y = Element.tlv t ∧ t.id ≠ optCode) ∧
    (optCodeOf x = optCode ∨ x = .stop ∨ x = .pad ∧ ∀ y ∈ after, optCodeOf y ≠ optCode)

theorem slice_succ (m : Nat → UInt8) (a l : Nat) :
    slice m a (l + 1) = m a :: slice m (a + 1) l := by
  rw [Nat.add_comm, slice_append]
  rfl

theorem slice_eq_cons {a l : Nat} {b : UInt8} {rest : List UInt8}
    (eq : slice m a l = b :: rest) : m a = b ∧ slice m (a + 1) rest.length = rest ∧
      l = rest.length + 1 := by
  have length := congrArg List.length eq
  rw [slice_length, List.length_cons] at length
  subst length
  rw [slice_succ] at eq
  obtain ⟨first, later⟩ := List.cons.inj eq
  exact ⟨first, later, rfl⟩

/-- A complete option at an address, and what follows it. -/
theorem slice_eq_tlv {t : Tlv} {rest : List UInt8}
    (eq : slice m hdr (tail - hdr) = t.encode ++ rest) :
    m hdr = t.id ∧ (m (hdr + 1)).toNat + 2 = t.size ∧ hdr + t.size ≤ tail ∧
      slice m (hdr + t.size) (tail - (hdr + t.size)) = rest := by
  have length := congrArg List.length eq
  rw [slice_length, List.length_append, Tlv.length_encode] at length
  have size : t.size = t.data.length + 2 := rfl
  obtain ⟨first, later, -⟩ := slice_eq_cons eq
  obtain ⟨second, -, -⟩ := slice_eq_cons later
  have count : (UInt8.ofNat t.data.length).toNat = t.data.length :=
    UInt8.toNat_ofNat_of_lt' t.short
  refine ⟨first, by rw [second, count, size], by omega, ?_⟩
  rw [length, slice_append] at eq
  have same : tail - (hdr + t.size) = rest.length := by omega
  rw [same]
  exact List.append_inj_right eq (by simp)

/-- What is at an address when no option can be read there. -/
theorem options_eq_nil (nothing : dhcpOptions m tail hdr = []) (lt : hdr < tail) :
    m hdr ≠ dhcpOptEnd ∧ m hdr ≠ dhcpOptPad ∧
      tail < hdr + (m (hdr + 1)).toNat + 2 := by
  obtain ⟨l, more⟩ := Nat.exists_eq_add_of_lt lt
  have range : tail - hdr = l + 1 := by omega
  rw [dhcpOptions, range, slice_succ] at nothing
  have notEnd : m hdr ≠ dhcpOptEnd := by
    intro isEnd
    rw [isEnd, elements_stop] at nothing
    cases nothing
  have notPad : m hdr ≠ dhcpOptPad := by
    intro isPad
    rw [isPad, elements_pad (by decide)] at nothing
    cases nothing
  refine ⟨notEnd, notPad, ?_⟩
  by_contra enough
  have longer : ∃ k, l = k + 1 := ⟨l - 1, by omega⟩
  obtain ⟨k, rfl⟩ := longer
  rw [slice_succ] at nothing
  have whole : (m (hdr + 1)).toNat ≤ (slice m (hdr + 1 + 1) k).length := by
    rw [slice_length]
    omega
  obtain ⟨t, id, -, eq⟩ := exists_tlv (b := m hdr) whole
  rw [eq, elements_tlv t ⟨id ▸ notPad, id ▸ notEnd⟩] at nothing
  cases nothing

/-- Where no option can be read, the search goes past the tail or finds what is not whole. -/
theorem not_findsOpt_of_nil (nothing : dhcpOptions m tail hdr = []) :
    ¬FindsOpt m tail hdr optCode := by
  rintro ⟨reads, found, -⟩
  have lt := reads hdr hdr_mem_reads
  obtain ⟨notEnd, notPad, past⟩ := options_eq_nil nothing lt
  by_cases here : m hdr = optCode
  · rw [findOpt_found here, nothing] at found
    cases found
  · rw [findOpt_next here notEnd notPad lt] at reads
    have next := reads _ (List.mem_cons_of_mem _ (List.mem_cons_of_mem _ hdr_mem_reads))
    omega

theorem not_legible_nil : ¬Legible optCode [] := by
  rintro ⟨before, x, after, eq, -⟩
  cases before <;> cases eq

/-- The search at an option with the code. -/
theorem findsOpt_here {x : Element} {after : List Element}
    (options : dhcpOptions m tail hdr = x :: after) (code : m hdr = optCodeOf x)
    (here : optCodeOf x = optCode) (within : hdr + optSize m hdr ≤ tail) :
    FindsOpt m tail hdr optCode := by
  have size : 0 < optSize m hdr := by
    rw [optSize]
    split <;> omega
  rw [FindsOpt, findOpt_found (code.trans here), options, Element.offset, if_pos (by simpa)]
  refine ⟨?_, rfl, ?_⟩
  · intro a mem
    rw [List.mem_singleton.1 mem]
    omega
  · rintro _ ⟨⟩
    exact within

/-- The search at an END or a PAD with another code. -/
theorem findsOpt_stopped (lt : hdr < tail) (other : m hdr ≠ optCode)
    (stop : m hdr = dhcpOptEnd ∨ m hdr = dhcpOptPad) : FindsOpt m tail hdr optCode ↔
      Element.offset (optCodeOf · = optCode) (dhcpOptions m tail hdr) = none := by
  have stays : dhcpReqFindOpt m tail hdr optCode = ([hdr], none) :=
    findOpt_stopped other (stop.imp_right Or.inl)
  rw [FindsOpt, stays, List.forall_mem_singleton]
  constructor
  · rintro ⟨-, found, -⟩
    exact Option.map_eq_none_iff.1 found.symm
  · intro none
    exact ⟨lt, by rw [none, Option.map_none], nofun⟩

/-- The search at an option with another code goes on with the next. -/
theorem findsOpt_next {t : Tlv} {rest : List UInt8}
    (proper : (Element.tlv t).Proper dhcpOptPad dhcpOptEnd) (other : t.id ≠ optCode)
    (eq : slice m hdr (tail - hdr) = t.encode ++ rest) :
    FindsOpt m tail hdr optCode ↔ FindsOpt m tail (hdr + t.size) optCode := by
  obtain ⟨code, size, le, later⟩ := slice_eq_tlv eq
  have pos : 2 ≤ t.size := Nat.le_add_left ..
  have lt : hdr < tail := by omega
  have next := findOpt_next (code ▸ other) (code ▸ proper.2) (code ▸ proper.1) lt
  rw [Nat.add_assoc, size] at next
  have options : dhcpOptions m tail hdr = .tlv t :: dhcpOptions m tail (hdr + t.size) := by
    rw [dhcpOptions, eq, elements_tlv t proper, dhcpOptions, later]
  have kind : (decide (optCodeOf (.tlv t) = optCode)) = false := decide_eq_false other
  rw [FindsOpt, next, options, Element.offset, kind, if_neg Bool.false_ne_true, FindsOpt,
    List.forall_mem_cons, List.forall_mem_cons, Option.map_map]
  have same : (fun n => hdr + n) ∘ (fun n => (Element.tlv t).size + n) =
      fun n => hdr + t.size + n := by
    funext n
    exact (Nat.add_assoc ..).symm
  rw [same]
  constructor
  · rintro ⟨⟨-, -, reads⟩, others⟩
    exact ⟨reads, others⟩
  · rintro ⟨reads, others⟩
    exact ⟨⟨by omega, by omega, reads⟩, others⟩

theorem legible_tlv {t : Tlv} {options : List Element} (other : t.id ≠ optCode) :
    Legible optCode (.tlv t :: options) ↔ Legible optCode options := by
  constructor
  · rintro ⟨before, x, after, eq, tlvs, last⟩
    cases before with
    | nil =>
      obtain ⟨rfl, rfl⟩ := List.cons.inj eq
      rcases last with here | stop | ⟨pad, -⟩
      · exact absurd here other
      · cases stop
      · cases pad
    | cons y before =>
      obtain ⟨rfl, rfl⟩ := List.cons.inj eq
      exact ⟨before, x, after, rfl, fun y mem => tlvs y (List.mem_cons_of_mem _ mem), last⟩
  · rintro ⟨before, x, after, rfl, tlvs, last⟩
    exact ⟨.tlv t :: before, x, after, rfl,
      List.forall_mem_cons.2 ⟨⟨t, rfl, other⟩, tlvs⟩, last⟩

/-- An element that is no option with a length ends the walk. -/
theorem legible_head {x : Element} {after : List Element} (single : ∀ t, x ≠ .tlv t) :
    Legible optCode (x :: after) ↔
      optCodeOf x = optCode ∨ x = .stop ∨ x = .pad ∧ ∀ y ∈ after, optCodeOf y ≠ optCode := by
  constructor
  · rintro ⟨before, y, after', eq, tlvs, last⟩
    cases before with
    | nil =>
      obtain ⟨rfl, rfl⟩ := List.cons.inj eq
      exact last
    | cons z before =>
      obtain ⟨rfl, -⟩ := List.cons.inj eq
      obtain ⟨t, is, -⟩ := tlvs x List.mem_cons_self
      exact absurd is (single t)
  · intro last
    exact ⟨[], x, after, rfl, nofun, last⟩

/-- The search at an END. -/
theorem findsOpt_end {rest : List UInt8} (eq : slice m hdr (tail - hdr) = dhcpOptEnd :: rest) :
    FindsOpt m tail hdr optCode := by
  have options : dhcpOptions m tail hdr = [.stop] := by
    rw [dhcpOptions, eq, elements_stop]
  obtain ⟨code, -, length⟩ := slice_eq_cons eq
  have size : optSize m hdr = 1 := if_pos (.inr code)
  by_cases here : dhcpOptEnd = optCode
  · exact findsOpt_here options code here (by omega)
  · apply (findsOpt_stopped (by omega) (code ▸ here) (.inl code)).2
    rw [options]
    exact Element.offset_eq_none (List.forall_mem_singleton.2 (decide_eq_false here))

/-- The search at a PAD, after which nothing is looked at. -/
theorem findsOpt_pad {rest : List UInt8} (eq : slice m hdr (tail - hdr) = dhcpOptPad :: rest) :
    FindsOpt m tail hdr optCode ↔ dhcpOptPad = optCode ∨
      ∀ y ∈ elements dhcpOptPad dhcpOptEnd rest, optCodeOf y ≠ optCode := by
  have options : dhcpOptions m tail hdr = .pad :: elements dhcpOptPad dhcpOptEnd rest := by
    rw [dhcpOptions, eq, elements_pad (by decide)]
  obtain ⟨code, -, length⟩ := slice_eq_cons eq
  have size : optSize m hdr = 1 := if_pos (.inl code)
  by_cases here : dhcpOptPad = optCode
  · exact iff_of_true (findsOpt_here options code here (by omega)) (.inl here)
  · rw [findsOpt_stopped (by omega) (code ▸ here) (.inr code), options,
      Element.offset_eq_none_iff, List.forall_mem_cons]
    constructor
    · rintro ⟨-, others⟩
      exact .inr fun y mem => of_decide_eq_false (others y mem)
    · rintro (same | others)
      · exact absurd same here
      · exact ⟨decide_eq_false here, fun y mem => decide_eq_false (others y mem)⟩

/-- The search at an option with the code that is looked for. -/
theorem findsOpt_tlv {t : Tlv} {rest : List UInt8}
    (proper : (Element.tlv t).Proper dhcpOptPad dhcpOptEnd) (here : t.id = optCode)
    (eq : slice m hdr (tail - hdr) = t.encode ++ rest) : FindsOpt m tail hdr optCode := by
  obtain ⟨code, size, le, -⟩ := slice_eq_tlv eq
  have options : dhcpOptions m tail hdr = .tlv t :: elements dhcpOptPad dhcpOptEnd rest := by
    rw [dhcpOptions, eq, elements_tlv t proper]
  have single : ¬(m hdr = dhcpOptPad ∨ m hdr = dhcpOptEnd) := by
    rw [code]
    exact not_or.2 proper
  have whole : optSize m hdr = t.size := (if_neg single).trans size
  exact findsOpt_here options code here (by omega)

/-- The search does what the options say just when it can read them as they are meant. -/
theorem findsOpt_iff_legible (m : Nat → UInt8) (tail hdr : Nat) (optCode : UInt8) :
    FindsOpt m tail hdr optCode ↔ Legible optCode (dhcpOptions m tail hdr) := by
  induction left : tail - hdr using Nat.strongRecOn generalizing hdr with
  | ind n ih =>
    rcases elements_cases dhcpOptPad dhcpOptEnd
      (slice m hdr (tail - hdr)) with empty | ⟨rest, eq⟩ | ⟨ne, rest, eq⟩ | ⟨t, proper, rest, eq⟩
    · have nothing : dhcpOptions m tail hdr = [] := empty
      rw [nothing]
      exact iff_of_false (not_findsOpt_of_nil nothing) not_legible_nil
    · rw [dhcpOptions, eq, elements_stop, legible_head (by rintro t ⟨⟩)]
      exact iff_of_true (findsOpt_end eq) (.inr (.inl rfl))
    · rw [dhcpOptions, eq, elements_pad ne, legible_head (by rintro t ⟨⟩), findsOpt_pad eq]
      simp [optCodeOf, Element.code]
    · by_cases here : t.id = optCode
      · have options : dhcpOptions m tail hdr = .tlv t :: elements dhcpOptPad dhcpOptEnd rest := by
          rw [dhcpOptions, eq, elements_tlv t proper]
        rw [options]
        exact iff_of_true (findsOpt_tlv proper here eq) ⟨[], _, _, rfl, nofun, .inl here⟩
      · obtain ⟨-, -, le, later⟩ := slice_eq_tlv eq
        have pos : 2 ≤ t.size := Nat.le_add_left ..
        rw [findsOpt_next proper here eq, ih _ (by omega) (hdr + t.size) rfl, dhcpOptions,
          later, dhcpOptions, eq, elements_tlv t proper, legible_tlv here]

/-- A PAD and the message type after it. -/
def paddedOptions : List UInt8 := [dhcpOptPad, dhcpOptMsgType, 1, 3, dhcpOptEnd]

/-- The message type after a PAD is not found. -/
theorem option_after_pad_missed :
    ¬FindsOpt (fun a => paddedOptions.getD a 0) 5 0 dhcpOptMsgType := by
  intro finds
  have area : slice (fun a => paddedOptions.getD a 0) 0 (5 - 0) =
      dhcpOptPad :: [dhcpOptMsgType, 1, 3, dhcpOptEnd] := by decide
  rcases (findsOpt_pad area).1 finds with same | others
  · exact absurd same (by decide)
  · let type : Tlv := ⟨dhcpOptMsgType, [3], by decide⟩
    have read : elements dhcpOptPad dhcpOptEnd [dhcpOptMsgType, 1, 3, dhcpOptEnd] =
        [.tlv type, .stop] :=
      (elements_tlv type ⟨by decide, by decide⟩ [dhcpOptEnd]).trans (congrArg _ (elements_stop []))
    rw [read] at others
    exact others _ List.mem_cons_self rfl

/-! ## The way to the END -/

/-- Options with codes and lengths up to an END, as they lie in memory. -/
theorem options_up_to_end {l : List Tlv}
    (options : dhcpOptions m tail hdr = l.map .tlv ++ [Element.stop]) :
    (∀ t ∈ l, (Element.tlv t).Proper dhcpOptPad dhcpOptEnd) ∧
      hdr + (l.map Tlv.size).sum < tail ∧
      slice m hdr (l.map Tlv.size).sum = l.flatMap Tlv.encode ∧
      m (hdr + (l.map Tlv.size).sum) = dhcpOptEnd := by
  induction l generalizing hdr with
  | nil =>
    rcases elements_cases dhcpOptPad dhcpOptEnd
      (slice m hdr (tail - hdr)) with empty | ⟨rest, eq⟩ | ⟨ne, rest, eq⟩ | ⟨t, proper, rest, eq⟩
    · cases empty.symm.trans options
    · obtain ⟨code, -, length⟩ := slice_eq_cons eq
      exact ⟨nofun, by simp only [List.map_nil, List.sum_nil]; omega, rfl, code⟩
    · rw [dhcpOptions, eq, elements_pad ne] at options
      cases options
    · rw [dhcpOptions, eq, elements_tlv t proper] at options
      cases options
  | cons t l ih =>
    rcases elements_cases dhcpOptPad dhcpOptEnd
      (slice m hdr (tail - hdr)) with empty | ⟨rest, eq⟩ | ⟨ne, rest, eq⟩ | ⟨u, proper, rest, eq⟩
    · cases empty.symm.trans options
    · rw [dhcpOptions, eq, elements_stop] at options
      cases options
    · rw [dhcpOptions, eq, elements_pad ne] at options
      cases options
    · obtain ⟨-, -, le, later⟩ := slice_eq_tlv eq
      rw [dhcpOptions, eq, elements_tlv u proper] at options
      obtain ⟨same, next⟩ := List.cons.inj options
      cases same
      rw [← later] at next
      obtain ⟨others, lt, bytes, last⟩ := ih next
      have first : slice m hdr t.size = t.encode := by
        have whole : tail - hdr = t.size + (tail - (hdr + t.size)) := by omega
        rw [whole, slice_append] at eq
        exact List.append_inj_left eq (by simp)
      rw [List.map_cons, List.sum_cons, ← Nat.add_assoc]
      refine ⟨List.forall_mem_cons.2 ⟨proper, others⟩, lt, ?_, last⟩
      rw [slice_append, first, bytes, List.flatMap_cons]

/-- Options that lie in memory, up to an END, are read. -/
theorem options_of_bytes {l : List Tlv}
    (proper : ∀ t ∈ l, (Element.tlv t).Proper dhcpOptPad dhcpOptEnd)
    (lt : hdr + (l.map Tlv.size).sum < tail)
    (bytes : slice m hdr (l.map Tlv.size).sum = l.flatMap Tlv.encode)
    (last : m (hdr + (l.map Tlv.size).sum) = dhcpOptEnd) :
    dhcpOptions m tail hdr = l.map .tlv ++ [Element.stop] := by
  obtain ⟨more, eq⟩ := Nat.exists_eq_add_of_lt lt
  have range : tail - hdr = (l.map Tlv.size).sum + (more + 1) := by omega
  have encoded : (l.map Element.tlv).flatMap (·.encode dhcpOptPad dhcpOptEnd) =
      l.flatMap Tlv.encode := List.flatMap_map ..
  rw [dhcpOptions, range, slice_append, slice_succ, last, bytes, ← encoded, elements_encode
    (by decide), elements_stop]
  · intro x mem
    obtain ⟨t, mem', rfl⟩ := List.mem_map.1 mem
    exact proper t mem'
  · intro mem
    obtain ⟨t, -, eq⟩ := List.mem_map.1 mem
    cases eq

/-- The search goes over options with other codes. -/
theorem findOpt_over {l : List Tlv}
    (others : ∀ t ∈ l, (Element.tlv t).Proper dhcpOptPad dhcpOptEnd ∧ t.id ≠ optCode)
    (le : hdr + (l.map Tlv.size).sum ≤ tail)
    (bytes : slice m hdr (l.map Tlv.size).sum = l.flatMap Tlv.encode) :
    (dhcpReqFindOpt m tail hdr optCode).2 =
      (dhcpReqFindOpt m tail (hdr + (l.map Tlv.size).sum) optCode).2 := by
  induction l generalizing hdr with
  | nil => rfl
  | cons t l ih =>
    rw [List.map_cons, List.sum_cons, ← Nat.add_assoc] at le ⊢
    rw [List.map_cons, List.sum_cons, List.flatMap_cons, slice_append] at bytes
    rw [List.forall_mem_cons] at others
    obtain ⟨⟨proper, other⟩, others⟩ := others
    have pos : 2 ≤ t.size := Nat.le_add_left ..
    have first : slice m hdr (hdr + t.size - hdr) = t.encode ++ [] := by
      rw [Nat.add_sub_cancel_left, List.append_nil]
      exact List.append_inj_left bytes (by simp)
    obtain ⟨code, size, -, -⟩ := slice_eq_tlv first
    have lt : hdr < tail := by omega
    have next := findOpt_next (code ▸ other) (code ▸ proper.2) (code ▸ proper.1) lt
    rw [Nat.add_assoc, size] at next
    rw [next]
    exact ih others le (List.append_inj_right bytes (by simp))

/-- Where there are only options with lengths up to an END, the search for the END comes to it. -/
theorem findOpt_end_of_options {l : List Tlv}
    (options : dhcpOptions m tail hdr = l.map .tlv ++ [Element.stop]) :
    (dhcpReqFindOpt m tail hdr dhcpOptEnd).2 = some (hdr + (l.map Tlv.size).sum) := by
  obtain ⟨proper, lt, bytes, last⟩ := options_up_to_end options
  have others : ∀ t ∈ l, (Element.tlv t).Proper dhcpOptPad dhcpOptEnd ∧ t.id ≠ dhcpOptEnd :=
    fun t mem => ⟨proper t mem, (proper t mem).2⟩
  rw [findOpt_over others (Nat.le_of_lt lt) bytes, findOpt_found last]

/-- An END that is found is one that only options with lengths come before. -/
theorem tlvs_of_found {before : List Element} {found : Nat}
    (options : dhcpOptions m tail hdr = before ++ [Element.stop])
    (eq : (dhcpReqFindOpt m tail hdr dhcpOptEnd).2 = some found) :
    ∃ l : List Tlv, before = l.map .tlv := by
  induction before generalizing hdr with
  | nil => exact ⟨[], rfl⟩
  | cons x before ih =>
    rcases elements_cases dhcpOptPad dhcpOptEnd
      (slice m hdr (tail - hdr)) with empty | ⟨rest, bytes⟩ | ⟨ne, rest, bytes⟩ |
        ⟨t, proper, rest, bytes⟩
    · cases empty.symm.trans options
    · rw [dhcpOptions, bytes, elements_stop] at options
      cases before <;> cases options
    · obtain ⟨code, -, -⟩ := slice_eq_cons bytes
      rw [findOpt_stopped (code ▸ ne) (.inr (.inl code))] at eq
      cases eq
    · rw [dhcpOptions, bytes, elements_tlv t proper] at options
      obtain ⟨rfl, next⟩ := List.cons.inj options
      obtain ⟨code, size, le, later⟩ := slice_eq_tlv bytes
      have pos : 2 ≤ t.size := Nat.le_add_left ..
      rw [findOpt_next (code ▸ proper.2) (code ▸ proper.2) (code ▸ proper.1) (by omega),
        Nat.add_assoc, size] at eq
      rw [← later] at next
      obtain ⟨l, rfl⟩ := ih next eq
      exact ⟨t :: l, rfl⟩

end Wave300.L2nat
