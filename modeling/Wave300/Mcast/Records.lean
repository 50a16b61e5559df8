import Wave300.Lib.Memory
import Wave300.Mcast.Messages

/-!
# Records in a frame

The parsers do not know where the frame ends: how many records there are, and how far the next one
is, comes from the frame. Each record that asks for something is noted with its place, and what
comes of the records is compared with records that the frame holds.
-/

namespace Wave300.Mcast

open Lib
open Hstdb (Sta)

def Report.group {α : Type} : Report α → α
  | .join g | .leave g => g

/-- Something that a parser acts upon: where it is, how long it is, and what it asks for. -/
structure Place (α : Type) where
  off : Nat
  size : Nat
  report : Report α

section Records
variable {α : Type} (F : Family α)

/-- From one record to the next. -/
def recordSize (mem : Memory) (off : Nat) : Nat :=
  4 + F.addrSize + F.addrSize * ntohs mem (off + 2) + 4 * (mem (off + 1)).toNat

/-- The records of a report that ask for something. -/
def recordPlaces (mem : Memory) : Nat → Nat → List (Place α)
  | 0, _ => []
  | left + 1, off =>
    (recordReport F mem off).map (⟨off, recordSize F mem off, ·⟩) ++
      recordPlaces mem left (off + recordSize F mem off)

theorem recordPlaces_reports (mem : Memory) (n off : Nat) :
    (recordPlaces F mem n off).map Place.report = recordReports F mem n off := by
  induction n generalizing off with
  | zero => rfl
  | succ n ih =>
    have next : off + (4 + F.addrSize) + F.addrSize * ntohs mem (off + 2) +
        4 * (mem (off + 1)).toNat = off + recordSize F mem off := by
      simp only [recordSize, Nat.add_assoc]
    rw [recordPlaces, List.map_append, ih, recordReports, List.map_map, next]
    exact congrArg (· ++ _) (List.map_id _)

end Records

/-- What `parse_igmp` acts upon: the whole message, or records of it. -/
def igmpPlaces (mem : Memory) (off : Nat) : List (Place UInt32) :=
  match (mem off).toNat with
  | 0x12 | 0x16 => [⟨off, 8, .join (ntohl mem (off + 4))⟩]
  | 0x17 => [⟨off, 8, .leave (ntohl mem (off + 4))⟩]
  | 0x22 => recordPlaces ip4 mem (ntohs mem (off + 6)) (off + 8)
  | _ => []

/-- What `parse_icmp6` acts upon. -/
def icmp6Places (mem : Memory) (off : Nat) : List (Place Ip6) :=
  match (mem off).toNat with
  | 131 => [⟨off, 24, .join (ip6.read mem (off + 8))⟩]
  | 132 => [⟨off, 24, .leave (ip6.read mem (off + 8))⟩]
  | 143 => recordPlaces ip6 mem (ntohs mem (off + 6)) (off + 8)
  | _ => []

theorem igmpPlaces_reports (mem : Memory) (off : Nat) :
    (igmpPlaces mem off).map Place.report = igmpReports mem off := by
  rw [igmpPlaces, igmpReports]
  generalize (mem off).toNat = type
  split
  case h_4 => exact recordPlaces_reports ip4 mem _ _
  case h_5 => simp [*]
  all_goals rfl

theorem icmp6Places_reports (mem : Memory) (off : Nat) :
    (icmp6Places mem off).map Place.report = icmp6Reports mem off := by
  rw [icmp6Places, icmp6Reports]
  generalize (mem off).toNat = type
  split
  case h_3 => exact recordPlaces_reports ip6 mem _ _
  case h_4 => simp [*]
  all_goals rfl

/-! ## Records as they are written -/

/-- A group record: its type, the number of its sources, and the group, the sources and the
auxiliary words. -/
structure Grec (addrSize : Nat) where
  type : UInt8
  auxWords : UInt8
  nsrcs : Nat
  body : List UInt8
  few : nsrcs < 65536
  long : body.length = addrSize + addrSize * nsrcs + 4 * auxWords.toNat

namespace Grec

variable {addrSize : Nat}

def encode (r : Grec addrSize) : List UInt8 := [r.type, r.auxWords] ++ toBytes 2 r.nsrcs ++ r.body

def size (r : Grec addrSize) : Nat := r.body.length + 4

@[simp] theorem length_encode (r : Grec addrSize) : r.encode.length = r.size := by
  simp [encode, size]
  omega

end Grec

variable {α : Type} {F : Family α} {mem : Memory} {off len n : Nat}

theorem ntohs_eq_slice (mem : Memory) (off : Nat) : ntohs mem off = ofBytes (slice mem off 2) := rfl

theorem ntohs_lt (mem : Memory) (off : Nat) : ntohs mem off < 65536 := by
  have lt := ofBytes_lt (slice mem off 2)
  rw [slice_length] at lt
  exact lt

/-- The head of a record, and what follows it. -/
theorem slice_record (mem : Memory) (off k : Nat) :
    slice mem off (k + 4) = [mem off, mem (off + 1)] ++ slice mem (off + 2) 2 ++
      slice mem (off + 4) k := by
  rw [Nat.add_comm, slice_append, slice_append mem off 2 2]
  rfl

/-- There is a record everywhere in memory. -/
theorem exists_grec (F : Family α) (mem : Memory) (off : Nat) :
    ∃ r : Grec F.addrSize, r.size = recordSize F mem off ∧ slice mem off r.size = r.encode := by
  have size : (slice mem (off + 4) (F.addrSize + F.addrSize * ntohs mem (off + 2) +
      4 * (mem (off + 1)).toNat)).length = _ := slice_length ..
  refine ⟨⟨mem off, mem (off + 1), ntohs mem (off + 2), _, ntohs_lt .., size⟩, ?_, ?_⟩
  · rw [Grec.size, size, recordSize]
    omega
  · have two : (slice mem (off + 2) 2).length = 2 := slice_length ..
    have sources := toBytes_ofBytes (slice mem (off + 2) 2)
    rw [two, ← ntohs_eq_slice] at sources
    rw [Grec.size, size, slice_record, Grec.encode, sources]

/-- A record that lies in memory is as long as the walk takes it to be. -/
theorem Grec.recordSize_eq {r : Grec F.addrSize} (bytes : slice mem off r.size = r.encode) :
    recordSize F mem off = r.size := by
  rw [Grec.size, slice_record, Grec.encode] at bytes
  have head := List.append_inj_left bytes (by simp)
  have types := List.append_inj_left head rfl
  have sources := List.append_inj_right head rfl
  have count : ntohs mem (off + 2) = r.nsrcs := by
    rw [ntohs_eq_slice, sources, ofBytes_toBytes]
    exact Nat.mod_eq_of_lt r.few
  have aux : mem (off + 1) = r.auxWords := (List.cons.inj (List.cons.inj types).2).1
  rw [recordSize, count, aux, Grec.size, r.long]
  omega

/-! ## Records that are in the frame -/

/-- What is acted upon ends before the frame does. -/
def Within (len : Nat) (places : List (Place α)) : Prop := ∀ p ∈ places, p.off + p.size ≤ len

instance (len : Nat) (places : List (Place α)) : Decidable (Within len places) :=
  inferInstanceAs (Decidable (∀ p ∈ places, p.off + p.size ≤ len))

/-- The frame holds some of the `n` records that are counted, and the rest of them ask for
nothing. -/
def RecordsComplete (F : Family α) (mem : Memory) (len n off : Nat) : Prop :=
  ∃ l : List (Grec F.addrSize), l.length ≤ n ∧
    l.flatMap Grec.encode <+: slice mem off (len - off) ∧
    recordReports F mem (n - l.length) (off + (l.map Grec.size).sum) = []

theorem recordReports_succ (F : Family α) (mem : Memory) (n off : Nat) :
    recordReports F mem (n + 1) off =
      recordReport F mem off ++ recordReports F mem n (off + recordSize F mem off) := by
  rw [recordReports]
  simp only [recordSize, Nat.add_assoc]

/-- Records at the front of what is left of a frame. -/
theorem prefix_cons {r : Grec F.addrSize} {rest : List UInt8} (le : off + r.size ≤ len)
    (bytes : slice mem off r.size = r.encode) :
    r.encode ++ rest <+: slice mem off (len - off) ↔
      rest <+: slice mem (off + r.size) (len - (off + r.size)) := by
  have split : len - off = r.size + (len - (off + r.size)) := by omega
  rw [split, slice_append, bytes, List.prefix_append_right_inj]

theorem slice_of_prefix {bytes rest : List UInt8} (some : bytes ≠ [])
    (isPrefix : bytes ++ rest <+: slice mem off (len - off)) :
    off + bytes.length ≤ len ∧ slice mem off bytes.length = bytes := by
  have le := isPrefix.length_le
  have pos := List.length_pos_iff.2 some
  rw [slice_length, List.length_append] at le
  have within : off + bytes.length ≤ len := by omega
  have split : len - off = bytes.length + (len - (off + bytes.length)) := by omega
  obtain ⟨more, eq⟩ := isPrefix
  rw [split, slice_append, List.append_assoc] at eq
  exact ⟨within, (List.append_inj_left eq (by simp)).symm⟩

theorem within_cons (F : Family α) (mem : Memory) (len n off : Nat) :
    Within len (recordPlaces F mem (n + 1) off) ↔
      (recordReport F mem off ≠ [] → off + recordSize F mem off ≤ len) ∧
        Within len (recordPlaces F mem n (off + recordSize F mem off)) := by
  rw [recordPlaces, Within, List.forall_mem_append, List.forall_mem_map]
  refine and_congr_left fun _ => ?_
  constructor
  · intro within acts
    obtain ⟨report, mem'⟩ := List.exists_mem_of_ne_nil _ acts
    exact within report mem'
  · intro within report mem'
    exact within (List.ne_nil_of_mem mem')

/-- The records that are acted upon lie in the frame just when it holds records up to the last of
them. -/
theorem within_iff_complete (F : Family α) (mem : Memory) (len n off : Nat) :
    Within len (recordPlaces F mem n off) ↔ RecordsComplete F mem len n off := by
  induction n generalizing off with
  | zero => exact iff_of_true nofun ⟨[], Nat.le_refl _, List.nil_prefix, rfl⟩
  | succ n ih =>
    obtain ⟨r, size, bytes⟩ := exists_grec F mem off
    rw [within_cons, ih, ← size]
    constructor
    · rintro ⟨first, l, few, isPrefix, quiet⟩
      by_cases nothing : recordReport F mem off = [] ∧ l = []
      · obtain ⟨silent, rfl⟩ := nothing
        refine ⟨[], Nat.zero_le _, List.nil_prefix, ?_⟩
        have next : recordReports F mem n (off + recordSize F mem off) = [] := size ▸ quiet
        show recordReports F mem (n + 1) off = []
        rw [recordReports_succ, silent, next, List.append_nil]
      · have within : off + r.size ≤ len := by
          by_cases silent : recordReport F mem off = []
          · have some := mt (And.intro silent) nothing
            obtain ⟨r', l', rfl⟩ := List.exists_cons_of_ne_nil some
            have le := isPrefix.length_le
            rw [List.flatMap_cons, List.length_append, Grec.length_encode, slice_length] at le
            have pos : 0 < r'.size := Nat.succ_pos _
            omega
          · exact first silent
        refine ⟨r :: l, Nat.succ_le_succ few, ?_, ?_⟩
        · rw [List.flatMap_cons, prefix_cons within bytes]
          exact isPrefix
        · rw [List.length_cons, Nat.succ_sub_succ, List.map_cons, List.sum_cons, ← Nat.add_assoc]
          exact quiet
    · rintro ⟨l, few, isPrefix, quiet⟩
      cases l with
      | nil =>
        have silent : recordReport F mem off = [] ∧
            recordReports F mem n (off + recordSize F mem off) = [] := by
          rw [← List.append_eq_nil_iff, ← recordReports_succ]
          exact quiet
        refine ⟨fun acts => absurd silent.1 acts, [], Nat.zero_le _, List.nil_prefix, ?_⟩
        rw [size]
        exact silent.2
      | cons r' l =>
        have nonempty : r'.encode ≠ [] := by simp [Grec.encode]
        rw [List.flatMap_cons] at isPrefix
        obtain ⟨within, bytes'⟩ := slice_of_prefix nonempty isPrefix
        rw [Grec.length_encode] at within bytes'
        have same : r.size = r'.size := by rw [size, Grec.recordSize_eq bytes']
        rw [same]
        refine ⟨fun _ => within, l, Nat.le_of_succ_le_succ few, ?_, ?_⟩
        · exact (prefix_cons within bytes').1 isPrefix
        · rw [List.length_cons, Nat.succ_sub_succ, List.map_cons, List.sum_cons,
            ← Nat.add_assoc] at quiet
          exact quiet

/-! ## Which groups change -/

section Tables
variable [DecidableEq α] {t : Table α} {s : Sta} {g g' : α}

theorem view_delGr_of_ne (other : g' ≠ g) : view F (delGr F t g) g' = view F t g' := by
  have kept (groups : List (Gr α)) : (groups.eraseP fun gr => gr.addr = g).find?
      (fun gr => gr.addr = g') = groups.find? fun gr => gr.addr = g' := by
    induction groups with
    | nil => rfl
    | cons gr groups ih =>
      by_cases here : gr.addr = g
      · rw [List.eraseP_cons_of_pos (by simpa using here),
          List.find?_cons_of_neg (by simpa [here] using Ne.symm other)]
      · rw [List.eraseP_cons_of_neg (by simpa using here), List.find?_cons, List.find?_cons, ih]
  by_cases bucket : F.hash g' = F.hash g
  · rw [view, findGr, delGr, bucket, Function.update_self, kept, ← bucket]
    rfl
  · rw [view, delGr, findGr_update_of_ne bucket, view]

theorem view_addSta_of_ne (other : g' ≠ g) : view F (addSta F t s g) g' = view F t g' := by
  rw [addSta]
  split
  case isTrue => rfl
  case isFalse =>
    have pushed : view F (if findGr F t g = none then pushGr F t g else t) g' = view F t g' := by
      split
      · rw [view_pushGr, Function.update_of_ne other]
      · rfl
    dsimp only
    split
    case h_1 => exact pushed
    case h_2 gr found =>
      split
      case isTrue => exact pushed
      case isFalse =>
        have present := mt view_eq_none.1 (found.trans_ne (Option.some_ne_none gr))
        rw [view_setSta present, Function.update_of_ne other, pushed]

theorem view_delSta_of_ne (other : g' ≠ g) : view F (delSta F t s g) g' = view F t g' := by
  rw [delSta]
  split
  case h_1 => rfl
  case h_2 gr found =>
    have present := mt view_eq_none.1 (found.trans_ne (Option.some_ne_none gr))
    split
    case isFalse => rfl
    case isTrue =>
      have set : view F (setSta F t g (gr.mcsta.erase s)) g' = view F t g' := by
        rw [view_setSta present, Function.update_of_ne other]
      dsimp only
      split
      · rw [view_delGr_of_ne other, set]
      · exact set

/-- Reports change the groups that they name only. -/
theorem view_reports (reports : List (Report α)) (unnamed : ∀ r ∈ reports, g' ≠ r.group) :
    view F (reports.foldl (applyReport F s) t) g' = view F t g' := by
  induction reports generalizing t with
  | nil => rfl
  | cons r reports ih =>
    rw [List.forall_mem_cons] at unnamed
    rw [List.foldl_cons, ih unnamed.2]
    cases r with
    | join g => exact view_addSta_of_ne unnamed.1
    | leave g => exact view_delSta_of_ne unnamed.1

/-- A group is named by something in the frame that a parser acts upon. -/
def Named (len : Nat) (places : List (Place α)) (g : α) : Prop :=
  ∃ p ∈ places, p.off + p.size ≤ len ∧ p.report.group = g

theorem Within.named {places : List (Place α)} (h : Within len places)
    (changed : view F ((places.map Place.report).foldl (applyReport F s) t) g ≠ view F t g) :
    Named len places g := by
  by_contra unnamed
  apply changed
  apply view_reports
  intro r mem same
  obtain ⟨p, there, rfl⟩ := List.mem_map.1 mem
  exact unnamed ⟨p, there, h p there, same.symm⟩

end Tables

/-! ## The whole frame -/

/-- What is acted upon of the IPv4 groups, and of the IPv6 groups. -/
def places4 (frame : Memory) : List (Place UInt32) :=
  match message frame with
  | .igmp off => igmpPlaces frame off
  | _ => []

def places6 (frame : Memory) : List (Place Ip6) :=
  match message frame with
  | .icmp6 off => icmp6Places frame off
  | _ => []

theorem mcParse_eq (frame : Memory) (s : Sta) (mcast : Ctx) : mcParse frame s mcast =
    ⟨((places4 frame).map Place.report).foldl (applyReport ip4 s) mcast.ip4Hash,
      ((places6 frame).map Place.report).foldl (applyReport ip6 s) mcast.ip6Hash⟩ := by
  rw [mcParse, places4, places6]
  cases message frame with
  | igmp off =>
    dsimp only
    rw [igmpPlaces_reports]
    rfl
  | icmp6 off =>
    dsimp only
    rw [icmp6Places_reports]
    rfl
  | other => rfl

/-- What `mtlk_mc_parse` acts upon lies in the frame, and only groups that are named there
change. -/
structure StaysInFrame (frame : Memory) (len : Nat) : Prop where
  within4 : Within len (places4 frame)
  within6 : Within len (places6 frame)
  named4 : ∀ s mcast g, view ip4 (mcParse frame s mcast).ip4Hash g ≠ view ip4 mcast.ip4Hash g →
    Named len (places4 frame) g
  named6 : ∀ s mcast g, view ip6 (mcParse frame s mcast).ip6Hash g ≠ view ip6 mcast.ip6Hash g →
    Named len (places6 frame) g

/-- The frame holds an IGMP message, or the records of it up to the last that asks for
something. -/
def IgmpComplete (frame : Memory) (len off : Nat) : Prop :=
  match (frame off).toNat with
  | 0x12 | 0x16 | 0x17 => off + 8 ≤ len
  | 0x22 => RecordsComplete ip4 frame len (ntohs frame (off + 6)) (off + 8)
  | _ => True

def Icmp6Complete (frame : Memory) (len off : Nat) : Prop :=
  match (frame off).toNat with
  | 131 | 132 => off + 24 ≤ len
  | 143 => RecordsComplete ip6 frame len (ntohs frame (off + 6)) (off + 8)
  | _ => True

def Complete (frame : Memory) (len : Nat) : Prop :=
  match message frame with
  | .igmp off => IgmpComplete frame len off
  | .icmp6 off => Icmp6Complete frame len off
  | .other => True

theorem within_singleton {p : Place α} : Within len [p] ↔ p.off + p.size ≤ len :=
  List.forall_mem_singleton

theorem within_igmp (frame : Memory) (len off : Nat) :
    Within len (igmpPlaces frame off) ↔ IgmpComplete frame len off := by
  rw [igmpPlaces, IgmpComplete]
  generalize (frame off).toNat = type
  split
  case h_1 | h_2 | h_3 => exact within_singleton
  case h_4 => exact within_iff_complete ..
  case h_5 => exact iff_of_true nofun trivial

theorem within_icmp6 (frame : Memory) (len off : Nat) :
    Within len (icmp6Places frame off) ↔ Icmp6Complete frame len off := by
  rw [icmp6Places, Icmp6Complete]
  generalize (frame off).toNat = type
  split
  case h_1 | h_2 => exact within_singleton
  case h_3 => exact within_iff_complete ..
  case h_4 => exact iff_of_true nofun trivial

theorem within_iff_complete_frame (frame : Memory) (len : Nat) :
    Within len (places4 frame) ∧ Within len (places6 frame) ↔ Complete frame len := by
  rw [places4, places6, Complete]
  cases message frame with
  | igmp off =>
    dsimp only
    rw [← within_igmp]
    exact and_iff_left nofun
  | icmp6 off =>
    dsimp only
    rw [← within_icmp6]
    exact and_iff_right nofun
  | other => exact iff_of_true ⟨nofun, nofun⟩ trivial

/-- The parsers stay in the frame just when it holds all that they act upon. -/
theorem staysInFrame_iff (frame : Memory) (len : Nat) :
    StaysInFrame frame len ↔ Complete frame len := by
  rw [← within_iff_complete_frame]
  constructor
  · exact fun h => ⟨h.within4, h.within6⟩
  · rintro ⟨within4, within6⟩
    constructor
    case within4 => exact within4
    case within6 => exact within6
    case named4 =>
      intro s mcast g changed
      rw [mcParse_eq] at changed
      exact within4.named changed
    case named6 =>
      intro s mcast g changed
      rw [mcParse_eq] at changed
      exact within6.named changed

/-- An IGMP report of version 3 that ends after its count of records, which is one, in a frame of
42 bytes. In memory a record for 239.1.2.3 follows. -/
def emptyReport : Memory := fun i =>
  ([1, 0, 94, 0, 0, 22, 2, 2, 2, 2, 2, 2, 8, 0,
    69, 0, 0, 28, 0, 0, 0, 0, 1, 2, 0, 0, 192, 168, 1, 7, 224, 0, 0, 22,
    0x22, 0, 0, 0, 0, 0, 0, 1, 4, 0, 0, 0, 239, 1, 2, 3] : List UInt8).getD i 0

/-- A station joins a group that the frame does not name. -/
theorem record_behind_frame : ¬StaysInFrame emptyReport 42 ∧
    view ip4 (mcParse emptyReport ⟨0, fun _ => 2⟩ ⟨fun _ => [], fun _ => []⟩).ip4Hash
      0xEF010203 = some [⟨0, fun _ => 2⟩] := by
  constructor
  · intro stays
    exact absurd stays.within4 (by decide)
  · decide

end Wave300.Mcast
