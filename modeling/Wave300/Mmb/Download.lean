import Wave300.Lib.Endian
import Wave300.Lib.Memory

/-!
# Downloading files to the card

`hw_mmb.c`: the firmware of a CPU is written to the segments of its memory, and a programming model
chunk by chunk to a window of the shared memory, with a message to the firmware for each. Both copy
by words, and `_mtlk_mmb_memcpy_toio_swap` refuses what is not made of words.

Memory is byte-addressed, and words are read and written in the byte order of the host. Write
validation, which only logs, is left out.
-/

namespace Wave300.Mmb

open Lib

/-- `mtlk_cpu_mem_t` -/
structure CpuMem where
  start : Nat
  length : Nat
  swap : Bool

/-- `mtlk_df_fw_file_buf_t`: the address of the buffer, and the bytes in it. -/
structure FwFileBuf where
  buffer : Nat
  bytes : List UInt8

/-- `PROGMODEL_CHUNK_SIZE` -/
def progmodelChunkSize : Nat := 8000

/-- `bswap_32` -/
def bswap32 (n : Nat) : Nat := ofBytes (toBytes 4 n).reverse

variable (e : Endian)

/-- The loop of `_mtlk_mmb_memcpy_toio_swap`, over what is left to copy. -/
def toioWords (swap : Bool) : List UInt8 → Nat → (Nat → UInt8) → Nat → UInt8
  | a :: b :: c :: d :: rest, dst, io =>
    let word := e.load [a, b, c, d]
    toioWords swap rest (dst + 4) (store io dst (e.bytes 4 (if swap then bswap32 word else word)))
  | _, _, io => io

/-- `_mtlk_mmb_memcpy_toio_swap` of the bytes at `src`, with whether they were copied. -/
def memcpyToioSwap (io : Nat → UInt8) (dst src : Nat) (bytes : List UInt8) (swap : Bool) :
    (Nat → UInt8) × Bool :=
  if (dst ||| src ||| bytes.length) &&& 3 = 0 then (toioWords e swap bytes dst io, true)
  else (io, false)

/-- The loop of `_mtlk_mmb_load_fw2mem`, over the segments that are left: what each segment has that
was written, and whether the result is `MTLK_ERR_OK`. -/
def loadSegments (buf : FwFileBuf) : List CpuMem → Nat → (Nat → UInt8) →
    List (CpuMem × List UInt8) × Bool
  | [], bytesWritten, _ => ([], bytesWritten = buf.bytes.length)
  | m :: rest, bytesWritten, io =>
    if m.length ≠ 0 ∧ bytesWritten < buf.bytes.length then
      let n := min m.length (buf.bytes.length - bytesWritten)
      let (io, copied) := memcpyToioSwap e io m.start (buf.buffer + bytesWritten)
        ((buf.bytes.drop bytesWritten).take n) m.swap
      if copied then
        let (written, ok) := loadSegments buf rest (bytesWritten + n) io
        ((m, slice io m.start n) :: written, ok)
      else ([], false)
    else ([], bytesWritten = buf.bytes.length)

/-- `_mtlk_mmb_load_fw2mem` -/
def loadFw2mem (mem : List CpuMem) (buf : FwFileBuf) (io : Nat → UInt8) :
    List (CpuMem × List UInt8) × Bool :=
  loadSegments e buf mem 0 io

/-- `left` in `_mtlk_mmb_load_progmodel_to_hw` -/
def chunkLeft (size loc : Nat) : Nat :=
  if progmodelChunkSize < size - loc then progmodelChunkSize else size - loc

theorem chunkLeft_eq (size loc : Nat) :
    chunkLeft size loc = min progmodelChunkSize (size - loc) := by
  unfold chunkLeft
  split <;> omega

theorem chunkLeft_shrinks {size loc : Nat} (more : loc < size) :
    size - (loc + chunkLeft size loc) < size - loc := by
  rw [chunkLeft_eq, progmodelChunkSize]
  omega

/-- The loop of `_mtlk_mmb_load_progmodel_to_hw` from `loc` on: what the window holds of each chunk
when its message is sent, and whether the end is reached. `window` is `mmb_pas` at offset `4 * 5`,
and `sent` tells for which positions the message is answered. -/
def progmodelChunks (fcontents : FwFileBuf) (window : Nat) (sent : Nat → Bool) (loc : Nat)
    (io : Nat → UInt8) : List (List UInt8) × Bool :=
  if loc < fcontents.bytes.length then
    let left := chunkLeft fcontents.bytes.length loc
    let io := (memcpyToioSwap e io window (fcontents.buffer + loc)
      ((fcontents.bytes.drop loc).take left) false).1
    if sent loc then
      let (chunks, ended) := progmodelChunks fcontents window sent (loc + left) io
      (slice io window left :: chunks, ended)
    else ([slice io window left], false)
  else ([], true)
termination_by fcontents.bytes.length - loc
decreasing_by exact chunkLeft_shrinks (by assumption)

/-- `_mtlk_mmb_load_progmodel_to_hw`, where `entry` is whether there is a TXMM slot. -/
def loadProgmodelToHw (fcontents : FwFileBuf) (mmbPas : Nat) (entry : Bool) (sent : Nat → Bool)
    (io : Nat → UInt8) : List (List UInt8) × Bool :=
  if entry then progmodelChunks e fcontents (mmbPas + 4 * 5) sent 0 io else ([], false)

/-! ## Copying words -/

/-- The bytes of each word turned around. -/
def swapWords : List UInt8 → List UInt8
  | a :: b :: c :: d :: rest => d :: c :: b :: a :: swapWords rest
  | l => l

/-- Bytes as a copy leaves them, or as they were before it. -/
def ordered (swap : Bool) (bytes : List UInt8) : List UInt8 :=
  if swap then swapWords bytes else bytes

@[simp] theorem swapWords_swapWords (l : List UInt8) : swapWords (swapWords l) = l := by
  induction l using swapWords.induct with
  | case1 a b c d rest ih => simp only [swapWords, ih]
  | case2 l short =>
    have same : swapWords l = l := by
      unfold swapWords
      split
      · exact absurd rfl (short _ _ _ _ _)
      · rfl
    rw [same, same]

@[simp] theorem ordered_ordered (swap : Bool) (l : List UInt8) :
    ordered swap (ordered swap l) = l := by
  cases swap with
  | true => exact swapWords_swapWords l
  | false => rfl

theorem bytes_bswap32 {l : List UInt8} (word : l.length = 4) :
    e.bytes 4 (bswap32 (e.load l)) = l.reverse := by
  have back : toBytes 4 (e.load l) = e.arrange l := by
    have read := toBytes_ofBytes (e.arrange l)
    rwa [Endian.length_arrange, word] at read
  have turned : toBytes 4 (bswap32 (e.load l)) = (e.arrange l).reverse := by
    have read := toBytes_ofBytes (e.arrange l).reverse
    rw [List.length_reverse, Endian.length_arrange, word] at read
    rw [bswap32, back, read]
  rw [Endian.bytes, turned]
  cases e <;> simp [Endian.arrange]

theorem word_iff (dst src n : Nat) :
    (dst ||| src ||| n) &&& 3 = 0 ↔ 4 ∣ dst ∧ 4 ∣ src ∧ 4 ∣ n := by
  rw [show (3 : Nat) = 2 ^ 2 - 1 from rfl, Nat.and_two_pow_sub_one_eq_mod, Nat.or_mod_two_pow,
    Nat.or_mod_two_pow, Nat.or_eq_zero_iff, Nat.or_eq_zero_iff, and_assoc]
  simp only [Nat.dvd_iff_mod_eq_zero]

/-- The words are written one after the other. -/
theorem toioWords_eq (swap : Bool) {bytes : List UInt8} (words : 4 ∣ bytes.length) (dst : Nat)
    (io : Nat → UInt8) : toioWords e swap bytes dst io = store io dst (ordered swap bytes) := by
  induction bytes, dst, io using toioWords.induct e swap with
  | case1 a b c d rest dst io word ih =>
    have rest_words : 4 ∣ rest.length := by
      simp only [List.length_cons] at words
      omega
    have first : e.bytes 4 (if swap then bswap32 word else word) = ordered swap [a, b, c, d] := by
      cases swap with
      | true => exact bytes_bswap32 e rfl
      | false => exact e.bytes_load [a, b, c, d]
    have joined : ordered swap (a :: b :: c :: d :: rest) =
        ordered swap [a, b, c, d] ++ ordered swap rest := by
      cases swap <;> rfl
    have long : (ordered swap [a, b, c, d]).length = 4 := by cases swap <;> rfl
    have behind := store_store io dst (ordered swap [a, b, c, d]) (ordered swap rest)
    rw [long] at behind
    rw [toioWords, ih rest_words, first, joined, behind]
  | case2 bytes dst io short =>
    have none : bytes = [] := by
      rcases bytes with _ | ⟨a, _ | ⟨b, _ | ⟨c, _ | ⟨d, rest⟩⟩⟩⟩
      · rfl
      all_goals first | exact absurd rfl (short _ _ _ _ _) | simp at words
    subst none
    cases swap <;> simp [toioWords, ordered, swapWords]

theorem swapWords_length (l : List UInt8) : (swapWords l).length = l.length := by
  induction l using swapWords.induct with
  | case1 a b c d rest ih => simp only [swapWords, List.length_cons, ih]
  | case2 l short =>
    unfold swapWords
    split
    · exact absurd rfl (short _ _ _ _ _)
    · rfl

@[simp] theorem ordered_length (swap : Bool) (l : List UInt8) :
    (ordered swap l).length = l.length := by
  cases swap with
  | true => exact swapWords_length l
  | false => rfl

/-- What a copy leaves where it copied to. -/
theorem slice_memcpyToioSwap {io : Nat → UInt8} {dst src : Nat} {bytes : List UInt8} {swap : Bool}
    (copied : (memcpyToioSwap e io dst src bytes swap).2 = true) :
    slice (memcpyToioSwap e io dst src bytes swap).1 dst bytes.length = ordered swap bytes := by
  unfold memcpyToioSwap at copied ⊢
  split at copied
  case isTrue words =>
    rw [if_pos words, toioWords_eq e swap ((word_iff _ _ _).1 words).2.2]
    exact slice_store (ordered_length swap bytes)
  case isFalse => cases copied

/-! ## The firmware -/

/-- The bytes that a segment got, as they are in the file. -/
def delivered (written : List (CpuMem × List UInt8)) : List UInt8 :=
  (written.map fun p => ordered p.1.swap p.2).flatten

theorem loadSegments_delivers {buf : FwFileBuf} {mem : List CpuMem} {bytesWritten : Nat}
    {io : Nat → UInt8} (le : bytesWritten ≤ buf.bytes.length)
    (ok : (loadSegments e buf mem bytesWritten io).2 = true) :
    delivered (loadSegments e buf mem bytesWritten io).1 = buf.bytes.drop bytesWritten := by
  induction mem generalizing bytesWritten io with
  | nil =>
    have all : bytesWritten = buf.bytes.length := by simpa [loadSegments] using ok
    simp [loadSegments, delivered, all]
  | cons m rest ih =>
    unfold loadSegments at ok ⊢
    split at ok
    case isFalse last =>
      have all : bytesWritten = buf.bytes.length := by simpa using ok
      rw [if_neg last]
      simp [delivered, all]
    case isTrue more =>
      rw [if_pos more]
      dsimp only at ok ⊢
      generalize size : min m.length (buf.bytes.length - bytesWritten) = n at ok ⊢
      have long : ((buf.bytes.drop bytesWritten).take n).length = n := by
        simp only [List.length_take, List.length_drop]
        omega
      generalize copying : memcpyToioSwap e io m.start (buf.buffer + bytesWritten)
        ((buf.bytes.drop bytesWritten).take n) m.swap = copy at ok ⊢
      split at ok
      case isFalse => cases ok
      case isTrue copied =>
        rw [if_pos copied]
        have tail := ih (by omega) ok
        rw [← copying] at copied
        have here := slice_memcpyToioSwap e copied
        rw [copying, long] at here
        simp only [delivered, List.map_cons, List.flatten_cons] at tail ⊢
        rw [here, tail, ordered_ordered, ← List.drop_drop, List.take_append_drop]

/-! ## The programming model -/

section Progmodel
variable (fcontents : FwFileBuf) (window : Nat)

/-- The chunk at a position. -/
def chunkAt (loc : Nat) : List UInt8 :=
  (fcontents.bytes.drop loc).take (chunkLeft fcontents.bytes.length loc)

/-- The chunk at a position is made of words, at addresses of words. -/
def ChunkAligned (loc : Nat) : Prop :=
  4 ∣ window ∧ 4 ∣ fcontents.buffer + loc ∧ 4 ∣ chunkLeft fcontents.bytes.length loc

/-- What the window holds before a chunk is put there: the chunk before it, or what was there before
the download if there is none or none can be put. -/
def heldBefore (io : Nat → UInt8) (loc : Nat) : List UInt8 :=
  if loc ≠ 0 ∧ 4 ∣ window ∧ 4 ∣ fcontents.buffer then
    (fcontents.bytes.drop (loc - progmodelChunkSize)).take (chunkLeft fcontents.bytes.length loc)
  else slice io window (chunkLeft fcontents.bytes.length loc)

/-- Every chunk that is not made of words happens to be what the window holds. -/
def Coincides (io : Nat → UInt8) : Prop :=
  ∀ loc, progmodelChunkSize ∣ loc → loc < fcontents.bytes.length →
    ¬ ChunkAligned fcontents window loc →
      chunkAt fcontents loc = heldBefore fcontents window io loc

variable {fcontents window} {sent : Nat → Bool} {io io₀ : Nat → UInt8} {loc : Nat}

/-- What the window holds on the way. -/
def Holding (fcontents : FwFileBuf) (window : Nat) (io₀ io : Nat → UInt8) (loc : Nat) : Prop :=
  if loc ≠ 0 ∧ 4 ∣ window ∧ 4 ∣ fcontents.buffer then
    slice io window progmodelChunkSize =
      (fcontents.bytes.drop (loc - progmodelChunkSize)).take progmodelChunkSize
  else ∀ n, slice io window n = slice io₀ window n

theorem chunkLeft_le (size loc : Nat) : chunkLeft size loc ≤ progmodelChunkSize := by
  rw [chunkLeft_eq]
  exact Nat.min_le_left ..

theorem chunkAt_length (fcontents : FwFileBuf) (loc : Nat) :
    (chunkAt fcontents loc).length = chunkLeft fcontents.bytes.length loc := by
  rw [chunkAt, chunkLeft_eq, List.length_take, List.length_drop]
  omega

theorem Holding.slice_eq (h : Holding fcontents window io₀ io loc) :
    slice io window (chunkLeft fcontents.bytes.length loc) =
      heldBefore fcontents window io₀ loc := by
  unfold Holding at h
  unfold heldBefore
  split at h
  case isTrue before =>
    rw [if_pos before, ← slice_take (chunkLeft_le _ loc), h, List.take_take,
      Nat.min_eq_left (chunkLeft_le _ loc)]
  case isFalse first => rw [if_neg first, h]

theorem chunk_whole (whole : progmodelChunkSize ∣ loc)
    (more : loc + chunkLeft fcontents.bytes.length loc < fcontents.bytes.length) :
    progmodelChunkSize ∣ loc + chunkLeft fcontents.bytes.length loc := by
  rw [chunkLeft_eq] at more ⊢
  rw [Nat.min_eq_left (by omega)]
  exact Nat.dvd_add whole (Nat.dvd_refl _)

/-- The chunks are apart by their size at least. -/
theorem chunk_next {loc' size : Nat} (whole : progmodelChunkSize ∣ loc)
    (whole' : progmodelChunkSize ∣ loc') (after : loc < loc') :
    loc + chunkLeft size loc ≤ loc' := by
  obtain ⟨k, rfl⟩ := whole
  obtain ⟨k', rfl⟩ := whole'
  have le := chunkLeft_le size (progmodelChunkSize * k)
  rw [progmodelChunkSize] at *
  omega

/-- What is in the window when the message of a chunk is sent. -/
theorem slice_put (h : Holding fcontents window io₀ io loc) :
    slice (memcpyToioSwap e io window (fcontents.buffer + loc) (chunkAt fcontents loc) false).1
        window (chunkLeft fcontents.bytes.length loc) = chunkAt fcontents loc ↔
      (¬ ChunkAligned fcontents window loc →
        chunkAt fcontents loc = heldBefore fcontents window io₀ loc) := by
  have iff := word_iff window (fcontents.buffer + loc) (chunkAt fcontents loc).length
  rw [chunkAt_length] at iff
  by_cases aligned : ChunkAligned fcontents window loc
  · have copied : (memcpyToioSwap e io window (fcontents.buffer + loc) (chunkAt fcontents loc)
        false).2 = true := by
      rw [memcpyToioSwap, chunkAt_length, if_pos (iff.2 aligned)]
    have put := slice_memcpyToioSwap e copied
    rw [chunkAt_length] at put
    constructor
    · exact fun _ odd => absurd aligned odd
    · exact fun _ => put
  · have refused : (memcpyToioSwap e io window (fcontents.buffer + loc) (chunkAt fcontents loc)
        false).1 = io := by
      rw [memcpyToioSwap, chunkAt_length, if_neg fun words => aligned (iff.1 words)]
    rw [refused, h.slice_eq]
    constructor
    · exact fun same _ => same.symm
    · exact fun same => (same aligned).symm

theorem Holding.next (h : Holding fcontents window io₀ io loc) (whole : progmodelChunkSize ∣ loc)
    (more : loc + chunkLeft fcontents.bytes.length loc < fcontents.bytes.length) :
    Holding fcontents window io₀
      (memcpyToioSwap e io window (fcontents.buffer + loc) (chunkAt fcontents loc) false).1
      (loc + chunkLeft fcontents.bytes.length loc) := by
  have size : chunkLeft fcontents.bytes.length loc = progmodelChunkSize := by
    rw [chunkLeft_eq] at more ⊢
    omega
  have words : 4 ∣ loc := Nat.dvd_trans ⟨2000, rfl⟩ whole
  have iff := word_iff window (fcontents.buffer + loc) (chunkAt fcontents loc).length
  rw [chunkAt_length, size, Nat.dvd_add_left words] at iff
  unfold Holding
  split
  case isTrue aligned =>
    have word := iff.2 ⟨aligned.2.1, aligned.2.2, ⟨2000, rfl⟩⟩
    have copied : (memcpyToioSwap e io window (fcontents.buffer + loc) (chunkAt fcontents loc)
        false).2 = true := by
      rw [memcpyToioSwap, chunkAt_length, size, if_pos word]
    have put := slice_memcpyToioSwap e copied
    rw [chunkAt_length, size] at put
    rw [put, size, Nat.add_sub_cancel]
    simp only [ordered, chunkAt, size, Bool.false_eq_true, if_false]
  case isFalse unaligned =>
    have refused : (memcpyToioSwap e io window (fcontents.buffer + loc) (chunkAt fcontents loc)
        false).1 = io := by
      rw [memcpyToioSwap, chunkAt_length, size, if_neg]
      intro word
      have both := iff.1 word
      exact unaligned ⟨by rw [size, progmodelChunkSize]; omega, both.1, both.2.1⟩
    rw [refused]
    unfold Holding at h
    rwa [if_neg fun before => unaligned ⟨by rw [size, progmodelChunkSize]; omega, before.2⟩] at h

/-- From a chunk on, the chunks that are sent make up the file exactly when those that are not put
happen to be there. -/
theorem progmodelChunks_iff (h : loc < fcontents.bytes.length →
      progmodelChunkSize ∣ loc ∧ Holding fcontents window io₀ io loc)
    (ended : (progmodelChunks e fcontents window sent loc io).2 = true) :
    (progmodelChunks e fcontents window sent loc io).1.flatten = fcontents.bytes.drop loc ↔
      ∀ loc', progmodelChunkSize ∣ loc' → loc ≤ loc' → loc' < fcontents.bytes.length →
        ¬ ChunkAligned fcontents window loc' →
          chunkAt fcontents loc' = heldBefore fcontents window io₀ loc' := by
  induction left : fcontents.bytes.length - loc using Nat.strong_induction_on
    generalizing loc io with
  | _ k ih =>
    unfold progmodelChunks at ended ⊢
    by_cases more : loc < fcontents.bytes.length
    case neg =>
      rw [if_neg more, List.flatten_nil, List.drop_eq_nil_of_le (by omega)]
      constructor
      · intro _ loc' _ _ _
        omega
      · exact fun _ => rfl
    obtain ⟨whole, holding⟩ := h more
    rw [if_pos more] at ended ⊢
    dsimp only at ended ⊢
    split at ended
    case isFalse => cases ended
    case isTrue answered =>
      rw [if_pos answered]
      have put := slice_put e holding
      have next : loc + chunkLeft fcontents.bytes.length loc < fcontents.bytes.length →
          progmodelChunkSize ∣ loc + chunkLeft fcontents.bytes.length loc ∧ _ := fun later =>
        ⟨chunk_whole whole later, holding.next e whole later⟩
      have rest := ih _ (left ▸ chunkLeft_shrinks more) next ended rfl
      have split : fcontents.bytes.drop loc = chunkAt fcontents loc ++
          fcontents.bytes.drop (loc + chunkLeft fcontents.bytes.length loc) := by
        rw [chunkAt, ← List.drop_drop, List.take_append_drop]
      have same_length := fun io' : Nat → UInt8 =>
        (slice_length io' window _).trans (chunkAt_length fcontents loc).symm
      have chunk : (fcontents.bytes.drop loc).take (chunkLeft fcontents.bytes.length loc) =
          chunkAt fcontents loc := rfl
      rw [List.flatten_cons, chunk, split]
      constructor
      · intro equal loc' whole' le lt
        obtain ⟨here, behind⟩ := List.append_inj equal (same_length _)
        obtain rfl | after := Nat.eq_or_lt_of_le le
        · exact put.1 here
        · exact rest.1 behind loc' whole' (chunk_next whole whole' after) lt
      · intro all
        have here := put.2 (all loc whole (Nat.le_refl loc) more)
        have behind := rest.2 fun loc' whole' le => all loc' whole' (Nat.le_of_add_right_le le)
        rw [behind]
        exact congrArg (· ++ _) here

/-- The segments of the firmware get the file whenever the download succeeds. The chunks of the
programming model make up the file when the download reaches its end, exactly when every chunk that
is not made of words happens to be in the window already. -/
theorem download_delivers_iff (mem : List CpuMem) (buf fcontents : FwFileBuf) (mmbPas : Nat)
    (entry : Bool) (sent : Nat → Bool) (io : Nat → UInt8) :
    ((loadFw2mem e mem buf io).2 = true → delivered (loadFw2mem e mem buf io).1 = buf.bytes) ∧
    ((loadProgmodelToHw e fcontents mmbPas entry sent io).2 = true →
      ((loadProgmodelToHw e fcontents mmbPas entry sent io).1.flatten = fcontents.bytes ↔
        Coincides fcontents (mmbPas + 4 * 5) io)) := by
  constructor
  · exact fun ok => loadSegments_delivers e (Nat.zero_le _) ok
  · intro ended
    unfold loadProgmodelToHw at ended ⊢
    split at ended
    case isFalse => cases ended
    case isTrue there =>
      rw [if_pos there]
      have start : Holding fcontents (mmbPas + 4 * 5) io io 0 := by
        unfold Holding
        rw [if_neg fun before => before.1 rfl]
        exact fun _ => rfl
      have iff := progmodelChunks_iff e (fun _ => ⟨Nat.dvd_zero _, start⟩) ended
      rw [List.drop_zero] at iff
      apply iff.trans
      constructor
      · exact fun all loc whole => all loc whole (Nat.zero_le loc)
      · exact fun all loc whole _ => all loc whole

/-- A file of words at an address of words, for a window at one, is delivered. -/
theorem coincides_of_words (aligned : 4 ∣ window) (buffer : 4 ∣ fcontents.buffer)
    (words : 4 ∣ fcontents.bytes.length) : Coincides fcontents window io := by
  intro loc whole more odd
  have word : 4 ∣ loc := Nat.dvd_trans ⟨2000, rfl⟩ whole
  apply absurd _ odd
  refine ⟨aligned, Nat.dvd_add buffer word, ?_⟩
  rw [chunkLeft_eq, progmodelChunkSize]
  omega

/-- A file of one byte. The window is empty when its message is sent. -/
theorem odd_file_not_delivered :
    ¬ ∀ (e : Endian) (fcontents : FwFileBuf) (mmbPas : Nat) (entry : Bool) (sent : Nat → Bool)
      (io : Nat → UInt8), (loadProgmodelToHw e fcontents mmbPas entry sent io).2 = true →
        (loadProgmodelToHw e fcontents mmbPas entry sent io).1.flatten = fcontents.bytes := by
  intro all
  have chunks : loadProgmodelToHw .big ⟨0, [1]⟩ 0 true (fun _ => true) (fun _ => 0) =
      ([[0]], true) := by
    rw [loadProgmodelToHw, if_pos rfl, progmodelChunks, if_pos (by decide)]
    dsimp only
    rw [if_pos rfl, progmodelChunks, if_neg (by decide)]
    decide
  have delivered := all .big ⟨0, [1]⟩ 0 true (fun _ => true) (fun _ => 0)
  rw [chunks] at delivered
  exact absurd (delivered rfl) (by decide)

end Progmodel

end Wave300.Mmb
