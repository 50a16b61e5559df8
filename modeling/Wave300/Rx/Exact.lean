import Wave300.Rx.Links

/-!
# What becomes of an A-MSDU

`mtlk_parse_a_msdu` against the division of the body into subframes.
-/

namespace Wave300.Rx

open Lib

variable {alloc : Nat → Bool} {bytes : Nat → UInt8} {n o fuel : Nat} {s t : Parse} {ok : Bool}
  {f : Subframe} {w : List Subframe × Ending}

/-- The buffer that a subframe is presented in. -/
def Subframe.buffer (f : Subframe) : Nbuf := ⟨f.start + llcSnapSize, f.len + 6⟩

/-- The head of the loop, when the subframes before an address are taken. Behind the end of the body
the original buffer could not be pulled. -/
structure At (bytes : Nat → UInt8) (n o : Nat) (s : Parse) : Prop where
  linked : Linked s
  len : s.aMsduLen = (n : Int) - o
  nbuf : o ≤ n → s.nbuf = ⟨o, n - o⟩
  past : n < o → s.nbuf.data + ethhdrSize ≤ n
  mem : ∀ j, o + 4 ≤ j → s.mem j = bytes j

/-- What the loop makes of a state, given the subframes that are left. -/
structure Outcome (bytes : Nat → UInt8) (n o : Nat) (s : Parse) (w : List Subframe × Ending)
    (t : Parse) (ok : Bool) : Prop where
  ok : ok = true ↔ w.2 ≠ .refused
  accepted : w.2 = .exact →
    Chain t.subFrame t.subNbufFirst (clones t.clones.length ++ [Buf.original])
  refused : w.2 = .refused → Chain t.subFrame .original (.original :: clones t.clones.length)
  padded : w.2 = .padded → Linked t ∧ s.clones.length + w.1.length = t.clones.length
  taken : t.subNbufStored = some .original ↔ w.2 = .exact
  buffers : w.2 = .exact → t.clones ++ [t.nbuf] = s.clones ++ w.1.map Subframe.buffer
  inBody : (∀ r ∈ t.touched, r.1 + r.2 ≤ n) ↔
    (∀ r ∈ s.touched, r.1 + r.2 ≤ n) ∧ ∀ f ∈ w.1, f.start + 20 ≤ n
  before : ∀ j, j < o + llcSnapSize → t.mem j = s.mem j
  frames : (∀ j, o ≤ j → s.mem j = bytes j) → (∀ f ∈ w.1, llcSnapSize ≤ f.len) →
    ∀ f ∈ w.1, slice t.mem f.buffer.data f.buffer.len = f.ethernet bytes

theorem padded_ge (f : Subframe) : f.start + 16 ≤ f.next := by
  simp only [Subframe.next, Subframe.stop, padOf, ethhdrSize]
  omega

theorem hProto_congr {m m' : Nat → UInt8} {a : Nat} (same : ∀ j, a + 4 ≤ j → m j = m' j) :
    hProto m a = hProto m' a := by
  simp only [hProto]
  rw [same (a + 12) (by omega), same (a + 13) (by omega)]

/-- The buffer of a subframe that fits the original buffer. -/
theorem presented_buffer (start : f.start = o) (fits : f.stop ≤ n) :
    (⟨o, n - o⟩ : Nbuf).presented (f.len + ethhdrSize) = f.buffer := by
  simp only [Subframe.stop, start, ethhdrSize] at fits
  have trimmed : (⟨o, n - o⟩ : Nbuf).trim (f.len + ethhdrSize) = ⟨o, f.len + ethhdrSize⟩ := by
    simp only [Nbuf.trim, ethhdrSize, Nbuf.mk.injEq, true_and]
    omega
  have long : llcSnapSize ≤ f.len + ethhdrSize := by
    simp only [llcSnapSize, ethhdrSize]
    omega
  simp only [Nbuf.presented, trimmed, Nbuf.pull, if_pos long, Subframe.buffer, start]
  rfl

/-- The addresses are moved behind the LLC and SNAP headers, but for the type. -/
theorem slice_presented {m : Nat → UInt8} (long : llcSnapSize ≤ f.len)
    (same : ∀ j, f.start ≤ j → m j = bytes j) :
    slice (move m (f.start + llcSnapSize) f.start macsSize) f.buffer.data f.buffer.len =
      f.ethernet bytes := by
  simp only [Subframe.buffer, Subframe.ethernet, llcSnapSize, macsSize, ethhdrSize] at *
  have parts : f.len + 6 = 12 + (2 + (f.len - 8)) := by omega
  rw [parts, slice_append, slice_append, slice_move]
  rw [slice_move_of_disjoint (.inr (by omega)), slice_move_of_disjoint (.inr (by omega))]
  have there : ∀ a l, f.start ≤ a → slice m a l = slice bytes a l := fun a l le =>
    slice_congr fun j low _ => same j (le.trans low)
  rw [there _ _ (by omega), there _ _ (by omega), there _ _ (by omega)]

theorem onError_frame (s : Parse) : s.onError.touched = s.touched ∧ s.onError.mem = s.mem ∧
    s.onError.clones = s.clones ∧ s.onError.subNbufStored = s.subNbufStored := by
  simp only [Parse.onError]
  split <;> exact ⟨rfl, rfl, rfl, rfl⟩

/-- Nothing more is taken. -/
theorem outcome_refused {len : Int} {touched : List (Nat × Nat)} (h : Linked s)
    (inBody : (∀ r ∈ touched, r.1 + r.2 ≤ n) ↔ ∀ r ∈ s.touched, r.1 + r.2 ≤ n) :
    Outcome bytes n o s ([], .refused)
      { s with aMsduLen := len, touched := touched }.onError false := by
  have chain := chain_onError (s := { s with aMsduLen := len, touched := touched })
    ⟨h.stored, h.first, h.original, h.clone, h.unused⟩
  obtain ⟨ranges, mem, clones, stored⟩ :=
    onError_frame { s with aMsduLen := len, touched := touched }
  constructor
  case ok => simp
  case accepted => exact nofun
  case refused =>
    intro _
    rw [clones]
    exact chain
  case padded => exact nofun
  case taken =>
    rw [stored]
    exact iff_of_false h.stored_original nofun
  case buffers => exact nofun
  case inBody =>
    rw [ranges]
    simpa using inBody
  case before =>
    intro j _
    rw [mem]
  case frames => simp

theorem at_takeClone (h : At bytes n o s) (start : f.start = o) (fits : f.stop ≤ n)
    (ranges : List (Nat × Nat)) :
    At bytes n f.next ({ s with
      touched := ranges
      aMsduLen := s.aMsduLen - (f.len + ethhdrSize : Nat) }.takeClone o (f.len + ethhdrSize)) := by
  have linked := linked_takeClone (s := { s with
      touched := ranges
      aMsduLen := s.aMsduLen - (f.len + ethhdrSize : Nat) })
    ⟨h.linked.stored, h.linked.first, h.linked.original, h.linked.clone, h.linked.unused⟩
    o (f.len + ethhdrSize)
  have padded := padded_ge f
  simp only [Subframe.stop, start, ethhdrSize] at fits
  have here := h.nbuf (by omega)
  refine ⟨linked, ?_, ?_, ?_, ?_⟩ <;> rw [takeClone_eq]
  · simp only [h.len, Subframe.next, Subframe.stop, start]
    push_cast
    omega
  · intro inside
    simp only [Subframe.next, Subframe.stop, start] at inside
    simp only [here, Nbuf.pull, Subframe.next, Subframe.stop, start]
    rw [if_pos (by omega)]
    simp only [Nbuf.mk.injEq]
    omega
  · intro past
    simp only [Subframe.next, Subframe.stop, start] at past
    simp only [here, Nbuf.pull, ethhdrSize] at past ⊢
    rw [if_neg (by omega)]
    simp only
    omega
  · intro j low
    simp only [Parse.present]
    rw [move_outside, h.mem j (by omega)]
    simp only [llcSnapSize, macsSize]
    omega

/-- The subframe that ends the body. -/
theorem outcome_original (h : At bytes n o s) (start : f.start = o) (stop : f.stop = n) :
    Outcome bytes n o s ([f], .exact) ({ s with
      touched := s.touched ++ [(o + macsSize, 2)]
      aMsduLen := s.aMsduLen - (f.len + ethhdrSize : Nat) }.takeOriginal o
        (f.len + ethhdrSize)) true := by
  have chain := chain_takeOriginal (s := { s with
      touched := s.touched ++ [(o + macsSize, 2)]
      aMsduLen := s.aMsduLen - (f.len + ethhdrSize : Nat) })
    ⟨h.linked.stored, h.linked.first, h.linked.original, h.linked.clone, h.linked.unused⟩
    o (f.len + ethhdrSize)
  have fits : o + (f.len + 14) = n := start ▸ stop
  have here := h.nbuf (by omega)
  rw [takeOriginal_eq] at chain ⊢
  constructor
  case ok => simp
  case accepted => exact fun _ => chain
  case refused => exact nofun
  case padded => exact nofun
  case taken => simp
  case buffers =>
    intro _
    simp only [Parse.present, here, presented_buffer start stop.le, List.map_cons, List.map_nil]
  case inBody =>
    simp only [Parse.present, List.append_assoc, List.mem_append, List.mem_cons, List.not_mem_nil,
      or_false, macsSize, llcSnapSize]
    constructor
    · intro all
      refine ⟨fun r mem => all r (.inl mem), ?_⟩
      rintro g rfl
      have moved := all (o + 8, 12) (by simp)
      simp only at moved
      omega
    · rintro ⟨all, room⟩ r (old | head)
      · exact all r old
      · have room := room f rfl
        obtain rfl | rfl | rfl := head <;> simp only <;> omega
  case before =>
    intro j below
    simp only [Parse.present]
    exact move_outside (.inl below)
  case frames =>
    intro same long g mem
    obtain rfl := List.mem_singleton.1 mem
    simp only [Parse.present]
    subst start
    exact slice_presented (long g (by simp)) same

/-- A subframe before others: what follows it does not touch what it is presented as. -/
theorem outcome_clone (h : At bytes n o s) (start : f.start = o) (fits : f.stop ≤ n)
    (rest : Outcome bytes n f.next ({ s with
      touched := s.touched ++ [(o + macsSize, 2)]
      aMsduLen := s.aMsduLen - (f.len + ethhdrSize : Nat) }.takeClone o (f.len + ethhdrSize))
      w t ok) :
    Outcome bytes n o s (f :: w.1, w.2) t ok := by
  have inside : o + (f.len + 14) ≤ n := start ▸ fits
  have here := h.nbuf (by omega)
  have padded := padded_ge f
  have behind : f.stop ≤ f.next := Nat.le_add_right ..
  rw [takeClone_eq] at rest
  constructor
  case ok => exact rest.ok
  case accepted => exact rest.accepted
  case refused => exact rest.refused
  case padded =>
    intro padded
    obtain ⟨linked, count⟩ := rest.padded padded
    refine ⟨linked, ?_⟩
    simp only [List.length_append, List.length_singleton] at count
    simp only [List.length_cons]
    omega
  case taken => exact rest.taken
  case buffers =>
    intro exact
    rw [rest.buffers exact]
    simp only [here, presented_buffer start fits, List.append_assoc, List.singleton_append,
      List.map_cons]
  case inBody =>
    rw [rest.inBody]
    simp only [Parse.present, List.append_assoc, List.mem_append, List.mem_cons, List.not_mem_nil,
      or_false, macsSize, llcSnapSize]
    constructor
    · rintro ⟨all, others⟩
      refine ⟨fun r mem => all r (.inl mem), ?_⟩
      rintro g (rfl | later)
      · have moved := all (o + 8, 12) (by simp)
        simp only at moved
        omega
      · exact others g later
    · rintro ⟨all, room⟩
      refine ⟨?_, fun g later => room g (.inr later)⟩
      rintro r (old | head)
      · exact all r old
      · have room := room f (.inl rfl)
        obtain rfl | rfl | rfl := head <;> simp only <;> omega
  case before =>
    intro j below
    simp only [llcSnapSize] at below
    rw [rest.before j (by simp only [llcSnapSize]; omega)]
    exact move_outside (.inl (by simpa only [llcSnapSize] using below))
  case frames =>
    intro same long g mem
    have longs : ∀ g ∈ w.1, llcSnapSize ≤ g.len := fun g later => long g (.tail f later)
    obtain rfl | later := List.mem_cons.1 mem
    · have long := long g (by simp)
      subst start
      rw [← slice_presented long same]
      refine slice_congr ?_
      intro j _ below
      refine rest.before j ?_
      simp only [Subframe.buffer, Subframe.stop, llcSnapSize, ethhdrSize] at *
      omega
    · refine rest.frames ?_ longs g later
      intro j low
      simp only [Parse.present]
      rw [move_outside, same j (by omega)]
      have long := long f (by simp)
      simp only [Subframe.next, Subframe.stop, llcSnapSize, ethhdrSize, macsSize] at *
      omega

/-- What one round does: nothing is left, the rest is refused, a subframe ends the body, or one is
taken before others. -/
theorem loop_cases (h : At bytes n o s) (fuel : Nat) :
    (o = n ∧ s.loop alloc (fuel + 1) = some (s, true) ∧
      walk alloc bytes n (fuel + 1) s.clones.length o = ([], .padded)) ∨
    (∃ len touched, s.loop alloc (fuel + 1) =
        some ({ s with aMsduLen := len, touched := touched }.onError, false) ∧
      walk alloc bytes n (fuel + 1) s.clones.length o = ([], .refused) ∧
      (touched = s.touched ∨ ∃ a, touched = s.touched ++ [(a, 2)] ∧ a + 2 ≤ n)) ∨
    (∃ f : Subframe, f.start = o ∧ f.stop = n ∧ s.loop alloc (fuel + 1) = ({ s with
        touched := s.touched ++ [(o + macsSize, 2)]
        aMsduLen := s.aMsduLen - (f.len + ethhdrSize : Nat) }.takeOriginal o
          (f.len + ethhdrSize)).loop alloc fuel ∧
      walk alloc bytes n (fuel + 1) s.clones.length o = ([f], .exact)) ∨
    ∃ f : Subframe, f.start = o ∧ f.stop < n ∧ s.loop alloc (fuel + 1) = ({ s with
        touched := s.touched ++ [(o + macsSize, 2)]
        aMsduLen := s.aMsduLen - (f.len + ethhdrSize : Nat) }.takeClone o
          (f.len + ethhdrSize)).loop alloc fuel ∧
      walk alloc bytes n (fuel + 1) s.clones.length o =
        (f :: (walk alloc bytes n fuel (s.clones.length + 1) f.next).1,
          (walk alloc bytes n fuel (s.clones.length + 1) f.next).2) := by
  have len := h.len
  rw [Parse.loop, walk]
  by_cases done : o = n
  · rw [if_pos (by omega), if_pos done]
    exact .inl ⟨done, rfl, rfl⟩
  rw [if_neg (by omega), if_neg done]
  by_cases short : n < o + ethhdrSize
  · rw [if_pos short]
    right; left
    by_cases past : n < o
    · -- the padding went past the end: the header of the last subframe is read again
      have header := h.past past
      simp only [ethhdrSize] at header short
      rw [if_neg (by omega)]
      simp only
      split
      · exact ⟨_, _, rfl, trivial, .inr ⟨_, rfl, by simp only [macsSize]; omega⟩⟩
      · rw [if_pos (by omega)]
        exact ⟨_, _, rfl, trivial, .inr ⟨_, rfl, by simp only [macsSize]; omega⟩⟩
    · simp only [ethhdrSize] at short
      rw [if_pos (by simp only [ethhdrSize]; omega)]
      exact ⟨_, _, rfl, rfl, .inl rfl⟩
  rw [if_neg short, if_neg (by omega)]
  simp only [ethhdrSize, Nat.not_lt] at short
  have here := h.nbuf (by omega)
  have data : s.nbuf.data = o := by rw [here]
  have proto : hProto s.mem o = hProto bytes o := hProto_congr h.mem
  have room : o + macsSize + 2 ≤ n := by
    simp only [macsSize]
    omega
  simp only [data, proto]
  obtain ⟨f, is, start⟩ : ∃ f : Subframe, f = ⟨o, hProto bytes o⟩ ∧ f.start = o := ⟨_, rfl, rfl⟩
  have proto : hProto bytes o = f.len := by rw [is]
  rw [← is, proto]
  have stop : f.stop = o + (f.len + ethhdrSize) := by rw [Subframe.stop, start]
  by_cases long : amsduMaxMsduSize < f.len
  · simp only [if_pos long]
    exact .inr (.inl ⟨_, _, rfl, trivial, .inr ⟨_, rfl, room⟩⟩)
  simp only [if_neg long]
  by_cases beyond : n < f.stop
  · rw [if_pos beyond, if_pos (by omega)]
    exact .inr (.inl ⟨_, _, rfl, rfl, .inr ⟨_, rfl, room⟩⟩)
  rw [if_neg beyond, if_neg (by omega)]
  by_cases last : f.stop = n
  · rw [if_pos last, if_pos (by omega)]
    exact .inr (.inr (.inl ⟨f, start, last, rfl, rfl⟩))
  rw [if_neg last, if_neg (by omega)]
  cases made : alloc s.clones.length with
  | false => exact .inr (.inl ⟨_, _, rfl, rfl, .inr ⟨_, rfl, room⟩⟩)
  | true => exact .inr (.inr (.inr ⟨f, start, by omega, rfl, rfl⟩))

/-- From the head of the loop, with enough fuel. -/
theorem loop_outcome (h : At bytes n o s) (positive : 0 < fuel) (enough : n + 1 < o + fuel) :
    ∃ t ok, s.loop alloc fuel = some (t, ok) ∧
      Outcome bytes n o s (walk alloc bytes n fuel s.clones.length o) t ok := by
  induction fuel generalizing s o with
  | zero => omega
  | succ fuel ih =>
    obtain ⟨done, loop, walked⟩ | ⟨len, touched, loop, walked, ranges⟩ |
      ⟨f, start, last, loop, walked⟩ | ⟨f, start, before, loop, walked⟩ := loop_cases h fuel
    · refine ⟨s, true, loop, ?_⟩
      rw [walked]
      exact ⟨by simp, (by rintro ⟨⟩), (by rintro ⟨⟩), fun _ => ⟨h.linked, rfl⟩,
        iff_of_false h.linked.stored_original (by rintro ⟨⟩), (by rintro ⟨⟩), by simp,
        fun _ _ => rfl, by simp⟩
    · have inBody : (∀ r ∈ touched, r.1 + r.2 ≤ n) ↔ ∀ r ∈ s.touched, r.1 + r.2 ≤ n := by
        obtain rfl | ⟨a, rfl, inside⟩ := ranges
        · exact Iff.rfl
        · rw [List.forall_mem_append, List.forall_mem_singleton]
          exact and_iff_left inside
      rw [walked]
      exact ⟨_, _, loop, outcome_refused h.linked inBody⟩
    · have long : o + 14 ≤ n := by
        simp only [Subframe.stop, ethhdrSize] at last
        omega
      cases fuel with
      | zero => omega
      | succ fuel =>
        rw [walked]
        refine ⟨_, true, ?_, outcome_original h start last⟩
        rw [loop, Parse.loop, if_pos]
        rw [takeOriginal_eq]
        have len := h.len
        simp only [Subframe.stop, start] at last
        simp only [Parse.present]
        omega
    · have far := padded_ge f
      have long : o + 14 ≤ n := by
        simp only [Subframe.stop, ethhdrSize] at before
        omega
      obtain ⟨t, ok, result, outcome⟩ :=
        ih (at_takeClone h start before.le (s.touched ++ [(o + macsSize, 2)])) (by omega) (by omega)
      refine ⟨t, ok, loop.trans result, ?_⟩
      have count : ({ s with
          touched := s.touched ++ [(o + macsSize, 2)]
          aMsduLen := s.aMsduLen - (f.len + ethhdrSize : Nat) }.takeClone o
            (f.len + ethhdrSize)).clones.length = s.clones.length + 1 := by
        simp [takeClone_eq, Parse.present]
      rw [count] at outcome
      rw [walked]
      exact outcome_clone h start before.le outcome

/-- What the walk takes is inside the body. When it ends with the body and the headers are there,
the body is a list of subframes. -/
theorem walk_spec (alloc : Nat → Bool) (bytes : Nat → UInt8) (n fuel k o : Nat) :
    (∀ f ∈ (walk alloc bytes n fuel k o).1, f.stop ≤ n) ∧
      ((walk alloc bytes n fuel k o).2 = .exact →
        (∀ f ∈ (walk alloc bytes n fuel k o).1, llcSnapSize ≤ f.len) →
        AMsdu bytes n o (walk alloc bytes n fuel k o).1) := by
  induction fuel generalizing k o with
  | zero => simp [walk]
  | succ fuel ih =>
    rw [walk]
    split
    · simp
    split
    · simp
    split
    · simp
    next most =>
      split
      · simp
      next fits =>
        have fits : (⟨o, hProto bytes o⟩ : Subframe).stop ≤ n := by omega
        have most : hProto bytes o ≤ amsduMaxMsduSize := by
          simpa using most
        split
        next last =>
          refine ⟨?_, fun _ long => ?_⟩
          · intro f mem
            obtain rfl := List.mem_singleton.1 mem
            exact fits
          · exact AMsdu.last (f := ⟨o, hProto bytes o⟩) ⟨rfl, long _ (by simp), most⟩ last
        · split
          · obtain ⟨inside, exact⟩ := ih (k + 1) (⟨o, hProto bytes o⟩ : Subframe).next
            refine ⟨?_, fun ends long => ?_⟩
            · intro f mem
              obtain rfl | later := List.mem_cons.1 mem
              · exact fits
              · exact inside f later
            · refine AMsdu.more (f := ⟨o, hProto bytes o⟩) ⟨rfl, long _ (by simp), most⟩ ?_
              exact exact ends fun f later => long f (.tail _ later)
          · simp

theorem AMsdu.valid {l : List Subframe} (h : AMsdu bytes n o l) : ∀ f ∈ l, f.Valid bytes := by
  induction h with
  | last valid _ => simpa using valid
  | more valid _ ih =>
    intro g mem
    obtain rfl | later := List.mem_cons.1 mem
    · exact valid
    · exact ih g later

/-- The buffer that a chain names. -/
def Parse.nbufOf (t : Parse) : Buf → Nbuf
  | .original => t.nbuf
  | .clone i => t.clones.getD i t.nbuf

/-- The bytes a buffer shows. -/
def Parse.view (t : Parse) (b : Buf) : List UInt8 :=
  slice t.mem (t.nbufOf b).data (t.nbufOf b).len

/-- What is promised of an A-MSDU body. -/
structure Deaggregated (bytes : Nat → UInt8) (n : Nat) (t : Parse) (ok : Bool) : Prop where
  inBody : ∀ r ∈ t.touched, r.1 + r.2 ≤ n
  accepted : ok = true → ∃ frames l, AMsdu bytes n 0 frames ∧
    Chain t.subFrame t.subNbufFirst l ∧ l.Perm (.original :: clones t.clones.length) ∧
    l.map t.view = frames.map (Subframe.ethernet bytes)
  refused : ok = false → ∃ l, Chain t.subFrame .original l ∧
    l.Perm (.original :: clones t.clones.length)

/-- The subframes of the body, as far as there are clones for them, have their LLC and SNAP headers,
and no padding follows the last one. Where the body is refused, it is enough that the twelve bytes
of the addresses can be moved without leaving it. -/
def Divided (alloc : Nat → Bool) (bytes : Nat → UInt8) (n : Nat) : Prop :=
  match walk alloc bytes n (n + 2) 0 0 with
  | (frames, .exact) => ∀ f ∈ frames, llcSnapSize ≤ f.len
  | (_, .padded) => False
  | (frames, .refused) => ∀ f ∈ frames, f.start + 20 ≤ n

instance : Decidable (Divided alloc bytes n) := by
  unfold Divided
  split <;> infer_instance

theorem views_clones (t : Parse) :
    (clones t.clones.length ++ [Buf.original]).map t.view =
      (t.clones ++ [t.nbuf]).map fun b => slice t.mem b.data b.len := by
  refine List.ext_getElem (by simp [clones]) ?_
  intro i low _
  simp only [clones, List.length_map, List.length_append, List.length_range, List.length_singleton]
    at low
  by_cases last : i = t.clones.length
  · subst last
    simp [clones, Parse.view, Parse.nbufOf]
  · have below : i < t.clones.length := by omega
    simp [clones, Parse.view, Parse.nbufOf, below, List.getElem_append_left]

/-- The state in which the loop begins. -/
theorem at_begin (bytes : Nat → UInt8) (n : Nat) : At bytes n 0 (Parse.begin bytes n) := by
  refine ⟨⟨rfl, rfl, rfl, ?_, fun _ _ => rfl⟩, ?_, fun _ => rfl, ?_, fun _ _ => rfl⟩
  · exact fun i below => absurd below (Nat.not_lt_zero i)
  · simp [Parse.begin]
  · exact fun below => absurd below (Nat.not_lt_zero n)

/-- What the call makes of a body. -/
theorem parse_outcome (alloc : Nat → Bool) (bytes : Nat → UInt8) (n : Nat) :
    ∃ t ok, mtlkParseAMsdu alloc bytes n = some (t, ok) ∧
      Outcome bytes n 0 (Parse.begin bytes n) (walk alloc bytes n (n + 2) 0 0) t ok :=
  loop_outcome (at_begin bytes n) (Nat.succ_pos (n + 1)) (by omega)

/-- `mtlk_parse_a_msdu` returns for every body and every failure to make clones, and keeps what is
promised exactly for the bodies that are divided so. -/
theorem a_msdu_deaggregated (alloc : Nat → Bool) (bytes : Nat → UInt8) (n : Nat) :
    ∃ t ok, mtlkParseAMsdu alloc bytes n = some (t, ok) ∧
      (Deaggregated bytes n t ok ↔ Divided alloc bytes n) := by
  obtain ⟨t, ok, result, outcome⟩ := parse_outcome alloc bytes n
  refine ⟨t, ok, result, ?_⟩
  obtain ⟨inside, exact⟩ := walk_spec alloc bytes n (n + 2) 0 0
  have division : ∀ frames, AMsdu bytes n 0 frames →
      walk alloc bytes n (n + 2) 0 0 = (frames, .exact) ∨
        (walk alloc bytes n (n + 2) 0 0).2 = .refused := fun frames list => list.walk (by omega)
  unfold Divided
  generalize walk alloc bytes n (n + 2) 0 0 = w at outcome inside exact division ⊢
  obtain ⟨frames, ending⟩ := w
  cases ending with
  | exact =>
    have accepted : ok = true := outcome.ok.2 (by simp)
    constructor
    · intro kept f mem
      obtain ⟨frames', -, list, -⟩ := kept.accepted accepted
      obtain same | lost := division frames' list
      · cases same
        exact (list.valid f mem).llcSnap
      · cases lost
    · intro long
      have list := exact rfl long
      refine ⟨outcome.inBody.2 ⟨by simp [Parse.begin], ?_⟩, fun _ => ?_, by simp [accepted]⟩
      · intro f mem
        have stop := inside f mem
        have len := long f mem
        simp only [Subframe.stop, llcSnapSize, ethhdrSize] at stop len
        omega
      · refine ⟨frames, _, list, outcome.accepted rfl, List.perm_append_singleton .., ?_⟩
        have buffers : t.clones ++ [t.nbuf] = frames.map Subframe.buffer := outcome.buffers rfl
        rw [views_clones, buffers, List.map_map]
        exact List.map_congr_left (outcome.frames (fun _ _ => rfl) long)
  | padded =>
    have accepted : ok = true := outcome.ok.2 (by simp)
    refine iff_of_false ?_ id
    intro kept
    obtain ⟨frames', -, list, -⟩ := kept.accepted accepted
    obtain same | lost := division frames' list
    · cases same
    · cases lost
  | refused =>
    have failed : ok = false := by
      cases ok with
      | false => rfl
      | true => exact absurd rfl (outcome.ok.1 rfl)
    constructor
    · exact fun kept => (outcome.inBody.1 kept.inBody).2
    · intro room
      refine ⟨outcome.inBody.2 ⟨by simp [Parse.begin], room⟩, by simp [failed], fun _ => ?_⟩
      exact ⟨_, outcome.refused rfl, List.Perm.refl _⟩

/-- A body of one subframe with the padding behind it: the subframe is in a clone, and the original
buffer is in no chain. -/
def paddedBody (j : Nat) : UInt8 := if j = 13 then 8 else 0

theorem a_msdu_not_deaggregated :
    ¬ ∀ alloc bytes n t ok, mtlkParseAMsdu alloc bytes n = some (t, ok) →
      Deaggregated bytes n t ok := by
  intro all
  have accepted : (mtlkParseAMsdu (fun _ => true) paddedBody 24).map Prod.snd = some true := by
    decide
  obtain ⟨⟨t, ok⟩, result, rfl⟩ := Option.map_eq_some_iff.1 accepted
  obtain ⟨frames, -, list, -⟩ := (all _ _ _ _ _ result).accepted rfl
  have ending : (walk (fun _ => true) paddedBody 24 25 0 0).2 = .padded := by decide
  have ended : walk (fun _ => true) paddedBody 24 25 0 0 = (frames, .exact) ∨
      (walk (fun _ => true) paddedBody 24 25 0 0).2 = .refused := list.walk (by omega)
  obtain found | lost := ended
  · rw [found] at ending
    cases ending
  · rw [lost] at ending
    cases ending

end Wave300.Rx
