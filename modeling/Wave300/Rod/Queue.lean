import Mathlib.Algebra.Order.Ring.Int
import Mathlib.Logic.Function.Basic

/-!
# The reordering queue

`rod.c`, function by function. One call runs under the queue's lock, so a call is one
step; it reads the clock once, as `now`. A packet is the buffer handed to
`mtlk_reorder_packet` together with the sequence number it was handed in with.

Four fields are not in `reordering_queue`: `sentUp` and `drops` record the calls of
`mtlk_rod_detect_replay_or_sendup` and of `mtlk_df_nbuf_free_sub_frames`, `touched` the
indices of `nbuf` that were read or written, and `pos` is `head` before any reduction
modulo `SEQUENCE_NUMBER_LIMIT`. The counters of the WSS object are left out.
-/

namespace Wave300.Rod

/-- `MAX_REORD_WINDOW` -/
def maxReordWindow : Nat := 64

/-- `SEQUENCE_NUMBER_LIMIT` -/
def sequenceNumberLimit : Nat := 0x1000

/-- `SEQ_DISTANCE`. The subtraction is done in `uint32`, of which the limit is a divisor. -/
def seqDistance (seq1 seq2 : Nat) : Nat :=
  (((seq2 : Int) - seq1 + sequenceNumberLimit) % sequenceNumberLimit).toNat

/-- `mtlk_osal_time_after`, on 32-bit timestamps. -/
def timeAfter (tm1 tm2 : Nat) : Bool := decide (2 ^ 31 ≤ ((tm2 : Int) - tm1) % 2 ^ 32)

structure Packet (α : Type) where
  seq : Nat
  nbuf : α
  deriving DecidableEq, Repr

/-- A packet sent up, with the unreduced head at that moment. A packet that arrived while
the queue was not in use has none. -/
structure Delivery (α : Type) where
  head : Option Nat
  packet : Packet α
  deriving DecidableEq, Repr

/-- Why a packet was freed. A duplicate comes with the packet found in its slot. -/
inductive Drop (α : Type) where
  | tooOld (packet : Packet α)
  | duplicate (packet holder : Packet α)
  deriving DecidableEq, Repr

def Drop.packet {α : Type} : Drop α → Packet α
  | tooOld p => p
  | duplicate p _ => p

/-- `reordering_stats` -/
structure Stats where
  tooOld : Nat
  duplicate : Nat
  queued : Nat
  overflows : Nat
  lost : Nat
  deriving DecidableEq, Repr

def Stats.zero : Stats := ⟨0, 0, 0, 0, 0⟩

/-- The WSS objects the queues of a station have created: how many so far, which of them
are not deleted and which of them have their counters open. -/
structure WssStore where
  created : Nat
  live : List Nat
  opened : List Nat
  deriving DecidableEq, Repr

/-- `reordering_queue` -/
structure Queue (α : Type) where
  used : Bool
  count : Nat
  head : Nat
  windowSize : Nat
  lastSent : Nat
  nbuf : Nat → Option (Packet α)
  stats : Stats
  wss : Option Nat
  wssStore : WssStore
  pos : Nat
  sentUp : List (Delivery α)
  drops : List (Drop α)
  touched : List Nat

variable {α : Type}

/-- The queue of a fresh station entry, which is zeroed. -/
def Queue.zeroed (α : Type) : Queue α where
  used := false
  count := 0
  head := 0
  windowSize := 0
  lastSent := 0
  nbuf := fun _ => none
  stats := .zero
  wss := none
  wssStore := ⟨0, [], []⟩
  pos := 0
  sentUp := []
  drops := []
  touched := []

def Queue.touch (q : Queue α) (slot : Nat) : Queue α := { q with touched := slot :: q.touched }

def Queue.tally (q : Queue α) (f : Stats → Stats) : Queue α := { q with stats := f q.stats }

/-- `retire_slot`. Its result is not used by any caller. -/
def retireSlot (now : Nat) (q : Queue α) (slot : Nat) : Queue α :=
  let slot := slot % q.windowSize
  let q := q.touch slot
  match q.nbuf slot with
  | some p =>
    { q with
      sentUp := q.sentUp ++ [⟨some q.pos, p⟩]
      nbuf := Function.update q.nbuf slot none
      lastSent := now
      count := q.count - 1 }
  | none => q.tally fun s => { s with lost := s.lost + 1 }

/-- `prod_queue->head++` -/
def Queue.bump (q : Queue α) : Queue α := { q with head := q.head + 1, pos := q.pos + 1 }

/-- `prod_queue->head %= SEQUENCE_NUMBER_LIMIT` -/
def Queue.reduce (q : Queue α) : Queue α := { q with head := q.head % sequenceNumberLimit }

/-- The loop of `rod_move_window`. -/
def moveLoop (now : Nat) : Nat → Queue α → Queue α
  | 0, q => q
  | n + 1, q => moveLoop now n (retireSlot now q q.head).bump

def rodMoveWindow (now : Nat) (q : Queue α) (n : Nat) : Queue α := (moveLoop now n q).reduce

/-- The loop of `mtlk_flush_rod_queue`, for at most `fuel` rounds. -/
def flushLoop (now : Nat) : Nat → Queue α → Queue α
  | 0, q => q
  | fuel + 1, q => if q.count = 0 then q else flushLoop now fuel (rodMoveWindow now q 1)

/-- Every slot comes by in twice the window, also when the head wraps in between. -/
def mtlkFlushRodQueue (now : Nat) (q : Queue α) : Queue α := flushLoop now (2 * q.windowSize) q

/-- The outcome of the two calls of `mtlk_create_rod_queue` that can fail. -/
structure WssResult where
  created : Bool
  opened : Bool
  deriving DecidableEq, Repr

def mtlkCreateRodQueue (now : Nat) (res : WssResult) (q : Queue α) (winSize ssn : Nat) : Queue α :=
  let q := if q.used then mtlkFlushRodQueue now q else q
  let id := q.wssStore.created
  if res.created then
    let q := { q with
      wss := some id
      wssStore := { q.wssStore with created := id + 1, live := id :: q.wssStore.live } }
    if res.opened then
      { q with
        wssStore := { q.wssStore with opened := id :: q.wssStore.opened }
        used := true
        count := 0
        head := ssn
        windowSize := winSize
        lastSent := now
        stats := .zero
        pos := ssn }
    else { q with wssStore := { q.wssStore with live := q.wssStore.live.erase id } }
  else { q with wss := none }

/-- `mtlk_handle_rod_queue_timer`. `timeout` is `ROD_QUEUE_FLUSH_TIMEOUT_MS` in the units
of the platform's clock. -/
def mtlkHandleRodQueueTimer (now timeout : Nat) (q : Queue α) : Queue α :=
  if q.used && decide (q.count ≠ 0) && timeAfter now (q.lastSent + timeout) then
    mtlkFlushRodQueue now q
  else q

/-- The counters are closed and the object deleted through the stored pointer. -/
def mtlkClearRodQueue (now : Nat) (q : Queue α) : Queue α :=
  if q.used then
    let q := mtlkFlushRodQueue now q
    { q with
      used := false
      wssStore := { q.wssStore with
        live := q.wss.elim q.wssStore.live q.wssStore.live.erase
        opened := q.wss.elim q.wssStore.opened q.wssStore.opened.erase } }
  else q

/-- The loop of `retire_rod_queue`, for at most `fuel` rounds. -/
def retireLoop (now : Nat) : Nat → Nat → Queue α → Queue α
  | 0, _, q => q
  | fuel + 1, loc, q =>
    let q := q.touch loc
    match q.nbuf loc with
    | none => q
    | some _ =>
      let q := retireSlot now q loc
      let loc := if q.windowSize ≤ loc + 1 then 0 else loc + 1
      retireLoop now fuel loc q.bump

/-- `retire_rod_queue`. Each round empties one slot, so the loop ends within the window. -/
def retireRodQueue (now : Nat) (q : Queue α) : Queue α :=
  (retireLoop now (q.windowSize + 1) (q.head % q.windowSize) q).reduce

/-- The part of `mtlk_reorder_packet` from the choice of the slot on. -/
def storePacket (now : Nat) (q : Queue α) (p : Packet α) : Queue α :=
  let loc := p.seq % q.windowSize
  let q := q.touch loc
  match q.nbuf loc with
  | none =>
    let q := { q with nbuf := Function.update q.nbuf loc (some p), count := q.count + 1 }
    retireRodQueue now (q.tally fun s => { s with queued := s.queued + 1 })
  | some holder =>
    let q := { q with drops := q.drops ++ [Drop.duplicate p holder] }
    q.tally fun s => { s with duplicate := s.duplicate + 1 }

/-- `mtlk_reorder_packet`, with its result. -/
def mtlkReorderPacket (now : Nat) (q : Queue α) (p : Packet α) : Queue α × Bool :=
  if q.used then
    let diff := seqDistance q.head p.seq
    if sequenceNumberLimit / 2 < diff then
      let q := { q with drops := q.drops ++ [Drop.tooOld p] }
      (q.tally fun s => { s with tooOld := s.tooOld + 1 }, true)
    else if q.windowSize ≤ diff then
      let q := q.tally fun s => { s with overflows := s.overflows + 1 }
      (storePacket now (rodMoveWindow now q (diff - q.windowSize + 1)) p, true)
    else (storePacket now q p, true)
  else
    -- legacy packets are not aggregated
    ({ q with sentUp := q.sentUp ++ [⟨none, p⟩] }, false)

/-- `mtlk_rod_process_bar`, with its result. -/
def mtlkRodProcessBar (now : Nat) (q : Queue α) (ssn : Nat) : Queue α × Int :=
  if q.used then
    let diff := seqDistance q.head ssn
    if sequenceNumberLimit / 2 < diff then (q, 0)
    else (retireRodQueue now (rodMoveWindow now q diff), 0)
  else (q, -1)

/-- The calls made on a queue between its creation and the next one. -/
inductive Op (α : Type) where
  | packet (now : Nat) (p : Packet α)
  | bar (now ssn : Nat)
  | timer (now timeout : Nat)
  | clear (now : Nat)

/-- Sequence numbers are twelve bits wide. -/
def Op.Valid : Op α → Prop
  | packet _ p => p.seq < sequenceNumberLimit
  | bar _ ssn => ssn < sequenceNumberLimit
  | timer _ _ => True
  | clear _ => True

instance : ∀ op : Op α, Decidable op.Valid
  | .packet _ p => inferInstanceAs (Decidable (p.seq < sequenceNumberLimit))
  | .bar _ ssn => inferInstanceAs (Decidable (ssn < sequenceNumberLimit))
  | .timer _ _ | .clear _ => .isTrue trivial

def step (q : Queue α) : Op α → Queue α
  | .packet now p => (mtlkReorderPacket now q p).1
  | .bar now ssn => (mtlkRodProcessBar now q ssn).1
  | .timer now timeout => mtlkHandleRodQueueTimer now timeout q
  | .clear now => mtlkClearRodQueue now q

def run (q : Queue α) (ops : List (Op α)) : Queue α := ops.foldl step q

/-- A queue that has just been created on a zeroed one. -/
def fresh (α : Type) (now winSize ssn : Nat) : Queue α :=
  mtlkCreateRodQueue now ⟨true, true⟩ (.zeroed α) winSize ssn

end Wave300.Rod
