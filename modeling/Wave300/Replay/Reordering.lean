import Wave300.Replay.Protection
import Wave300.Rod.Refinement

/-!
# Replay detection behind the reordering queue

The queue hands what it retires to `mtlk_detect_replay_or_sendup`, with the counter it keeps
itself. A sender numbers its frames; the queue knows these numbers modulo 4096 only. A frame
2048 behind the head has the sequence number of the one 2048 ahead, and is taken for it.
-/

namespace Wave300.Replay

open Lib Rod

/-- An honest CCMP sender, by the copies of its frames under the numbers it gave them. -/
structure Sender where
  sent : Int → Nbuf → Prop
  ccmp : ∀ n a, sent n a → ∃ sta, a.srcSta = some sta ∧ getCipher a sta = .ccmp
  increasing : ∀ n m a b, n < m → sent n a → sent m b → a.counter + nfrags a < b.counter

/-- The packets that reach the queue are frames of the sender, and as long as the queue is in
use, their numbers are at most `behind` behind the head and 2048 ahead of it. -/
def Sender.Reaches (S : Sender) (behind : Int) (q : Queue Nbuf) : Op Nbuf → Prop
  | .packet _ p => ∃ n, S.sent n p.nbuf ∧ (p.seq : Int) = n % sequenceNumberLimit ∧
      (q.used = true → q.pos - behind ≤ n ∧ n ≤ q.pos + 2048)
  | .bar _ _ | .timer _ _ | .clear _ => True

/-- The receiver after it checked what the queue sent up. -/
def Receiver.receive (r : Receiver) (ds : List (Delivery Nbuf)) : Receiver :=
  ds.foldl (fun r d => r.detectReplayOrSendup d.packet.nbuf) r

/-- No packet that was retired is taken for a replay. -/
def NoneReplayed (r : Receiver) (ds : List (Delivery Nbuf)) : Prop :=
  Each (fun before d => d.head ≠ none →
    ((r.receive before).detect d.packet.nbuf).1 ≠ .replay) ds

theorem Sender.protected (S : Sender) {n : Int} {a : Nbuf} (sent : S.sent n a) :
    a.Protected := by
  obtain ⟨sta, known, ccmp⟩ := S.ccmp n a sent
  exact ⟨sta, known, by rw [ccmp]; decide⟩

/-- A copy that arrives in reach is either behind the head or has the number the queue gives
it. -/
theorem number_eq {pos seq : Nat} {n : Int} (same : (seq : Int) = n % sequenceNumberLimit)
    (back : pos - 2047 ≤ n) (ahead : n ≤ pos + 2048)
    (taken : ¬ sequenceNumberLimit / 2 < seqDistance pos seq) :
    n = (pos + seqDistance pos seq : Nat) := by
  simp only [seqDistance, sequenceNumberLimit] at *
  omega

variable {S : Sender} {w t ssn : Nat}

/-- Everything the buffer holds and has delivered is under the number its sender gave it. -/
structure Sender.Numbered (S : Sender) (ssn : Nat) (b : Buffer w (Packet Nbuf)) : Prop where
  next : ssn ≤ b.next
  carries : b.Carries fun n p => ssn ≤ n ∧ S.sent n p.nbuf

theorem Sender.Numbered.advance {b : Buffer w (Packet Nbuf)} (h : S.Numbered ssn b) (k : Nat) :
    S.Numbered ssn (b.advance k) where
  next := by
    rw [Buffer.advance_next]
    exact Nat.le_add_right_of_le h.next
  carries := h.carries.advance k

theorem Sender.Numbered.put {b : Buffer w (Packet Nbuf)} (h : S.Numbered ssn b) {n : Nat}
    {p : Packet Nbuf} (after : ssn ≤ n) (sent : S.sent n p.nbuf) :
    S.Numbered ssn (b.put n p) where
  next := by
    rw [Buffer.put_next]
    exact h.next
  carries := h.carries.put ⟨after, sent⟩

theorem Sender.Numbered.packet {i : Ideal w Nbuf} (h : S.Numbered ssn i.buffer)
    {p : Packet Nbuf}
    (arrives : ¬ sequenceNumberLimit / 2 < seqDistance i.buffer.next p.seq →
      S.sent (i.buffer.next + seqDistance i.buffer.next p.seq : Nat) p.nbuf) :
    S.Numbered ssn (i.packet t p).buffer := by
  unfold Ideal.packet
  split
  case isFalse => exact h
  case isTrue =>
    simp only
    split
    case isTrue => exact h
    case isFalse taken =>
      have moved := h.advance (seqDistance i.buffer.next p.seq + 1 - w)
      split
      · exact (moved.put (Nat.le_add_right_of_le h.next) (arrives taken)).advance _
      · exact moved

theorem Sender.Numbered.step {i : Ideal w Nbuf} {q : Queue Nbuf} (h : S.Numbered ssn i.buffer)
    (like : Matches i q) {op : Op Nbuf} (reaches : S.Reaches 2047 q op) :
    S.Numbered ssn (i.step op).buffer := by
  cases op with
  | packet t p =>
    obtain ⟨n, sent, same, reach⟩ := reaches
    by_cases isOpen : i.isOpen = true
    · apply h.packet
      intro taken
      have near := reach (like.used.trans isOpen)
      rw [like.pos] at near
      rwa [← number_eq same near.1 near.2 taken]
    · simp only [Ideal.step, Ideal.packet, isOpen]
      exact h
  | bar t ssn =>
    simp only [Ideal.step, Ideal.bar]
    split
    · split
      · exact h
      · exact (h.advance _).advance _
    · exact h
  | timer t timeout =>
    simp only [Ideal.step, Ideal.timer]
    split
    · exact h.advance _
    · exact h
  | clear t =>
    simp only [Ideal.step, Ideal.clear]
    split
    · exact h.advance _
    · exact h

theorem receive_concat (r : Receiver) (ds : List (Delivery Nbuf)) (d : Delivery Nbuf) :
    r.receive (ds ++ [d]) = (r.receive ds).detectReplayOrSendup d.packet.nbuf := by
  rw [Receiver.receive, List.foldl_append]
  rfl

/-- After frames with smaller numbers, the stored counter is below that of every other. -/
theorem Sender.receive_lt (S : Sender) {r : Receiver}
    (below : ∀ (n : Nat) a, ssn ≤ n → S.sent n a → value r.rsn < a.counter)
    {es : List (Nat × Packet Nbuf)} (numbered : ∀ e ∈ es, S.sent e.1 e.2.nbuf)
    {m : Nat} {b : Nbuf} (after : ssn ≤ m) (sent : S.sent m b)
    (later : ∀ e ∈ es, e.1 < m) :
    value (r.receive (es.map fun e => ⟨some e.1, e.2⟩)).rsn < b.counter := by
  induction es using List.reverseRecOn generalizing m b with
  | nil => exact below m b after sent
  | append_singleton es e ih =>
    have here : e ∈ es ++ [e] := List.mem_append_right _ (List.mem_singleton_self e)
    have last := numbered e here
    have before := ih (fun e he => numbered e (List.mem_append_left _ he)) after sent
      (fun e he => later e (List.mem_append_left _ he))
    rw [List.map_append, List.map_singleton, receive_concat]
    obtain ⟨-, -, -, -, stored⟩ | ⟨-, -, -, kept⟩ :=
      detectReplayOrSendup_cases (r.receive (es.map fun e => ⟨some e.1, e.2⟩)) (S.protected last)
    · have less := S.increasing e.1 m _ b (by exact_mod_cast later e here) last sent
      calc value _ = (e.2.nbuf.counter + nfrags e.2.nbuf) % 2 ^ 48 := stored
        _ ≤ e.2.nbuf.counter + nfrags e.2.nbuf := Nat.mod_le ..
        _ < b.counter := less
    · rwa [kept]

theorem Sender.noneReplayed (S : Sender) {r : Receiver} {i : Ideal w Nbuf} {q : Queue Nbuf}
    (below : ∀ (n : Nat) a, ssn ≤ n → S.sent n a → value r.rsn < a.counter)
    (numbered : S.Numbered ssn i.buffer)
    (like : Matches i q) : NoneReplayed r q.sentUp := by
  intro before d rest split retired
  rw [like.sentUp] at split
  have passed : d ∉ i.legacy.map fun p => ⟨none, p⟩ := by
    intro here
    obtain ⟨p, -, rfl⟩ := List.mem_map.1 here
    exact retired rfl
  -- what passes by the queue comes after everything it retired
  obtain ⟨more, -, there⟩ | ⟨more, here, there⟩ := List.append_eq_append_iff.1 split
  · exact absurd (there ▸ List.mem_append_right more List.mem_cons_self) passed
  · cases more with
    | nil => exact absurd ((List.nil_append _ ▸ there) ▸ List.mem_cons_self) passed
    | cons d' more =>
      obtain ⟨rfl, -⟩ := List.cons.inj there
      obtain ⟨es, es', whole, rfl, tail⟩ := List.map_eq_append_iff.1 here
      obtain ⟨e, es', rfl, rfl, -⟩ := List.map_eq_cons_iff.1 tail
      have mem : ∀ e' ∈ es, e' ∈ i.buffer.out := fun e' he =>
        whole ▸ List.mem_append_left _ he
      have ⟨after, last⟩ := numbered.carries.out e
        (whole ▸ List.mem_append_right es List.mem_cons_self)
      have ordered := i.buffer.ordered
      rw [whole, List.map_append, List.map_cons, List.pairwise_append] at ordered
      intro replay
      have old := (detect_eq_replay_iff _ (S.protected last)).1 replay
      apply Nat.not_lt.2 old
      apply S.receive_lt below (fun e' he => (numbered.carries.out e' (mem e' he)).2) after last
      intro e' he
      exact ordered.2.2 e'.1 (List.mem_map_of_mem he) e.1 List.mem_cons_self

/-- Behind a window that divides the sequence space, no packet of an honest sender that the
queue retires is taken for a replay, as long as the frames that arrive are less than 2048
behind the head and at most 2048 ahead of it. The counter the queue starts with is below those
of the frames from the first one on that it waits for. -/
theorem honest_not_replayed (S : Sender) {r : Receiver} {q : Queue Nbuf}
    (divides : w ∣ sequenceNumberLimit)
    (below : ∀ (n : Nat) a, ssn ≤ n → S.sent n a → value r.rsn < a.counter)
    (run : Runs Rod.step (fun q op => op.Valid ∧ S.Reaches 2047 q op) (fresh Nbuf t w ssn) q) :
    NoneReplayed r q.sentUp := by
  have window : 0 < w := Nat.pos_of_dvd_of_pos divides (by decide)
  have h : ∃ i : Ideal w Nbuf, S.Numbered ssn i.buffer ∧ Matches i q := by
    apply run.invariant
    · exact ⟨Ideal.start Nbuf t w ssn, ⟨Nat.le_refl ssn, .start ssn⟩, fresh_matches window ssn⟩
    · rintro q op ⟨i, numbered, like⟩ ⟨valid, reaches⟩
      exact ⟨_, numbered.step like reaches, like.step window divides valid⟩
  obtain ⟨i, numbered, like⟩ := h
  exact S.noneReplayed below numbered like

/-- The CCMP frame with a packet number below 256 and no fragments. -/
def numberedFrame (pn : UInt8) : Nbuf := ccmpFrame 0 #v[pn, 0, 0, 0, 0, 0, 0, 0]

/-- A sender of three frames, with packet numbers 1 to 3. -/
def threeFrames (n₁ n₂ n₃ : Int) (h : n₁ < n₂ ∧ n₂ < n₃) : Sender where
  sent n a := (n, a) ∈ [(n₁, numberedFrame 1), (n₂, numberedFrame 2), (n₃, numberedFrame 3)]
  ccmp n a sent := by
    simp only [List.mem_cons, Prod.mk.injEq, List.not_mem_nil, or_false] at sent
    obtain ⟨-, rfl⟩ | ⟨-, rfl⟩ | ⟨-, rfl⟩ := sent <;> exact ⟨_, rfl, rfl⟩
  increasing n m a b less sent sent' := by
    simp only [List.mem_cons, Prod.mk.injEq, List.not_mem_nil, or_false] at sent sent'
    obtain ⟨rfl, rfl⟩ | ⟨rfl, rfl⟩ | ⟨rfl, rfl⟩ := sent <;>
      obtain ⟨rfl, rfl⟩ | ⟨rfl, rfl⟩ | ⟨rfl, rfl⟩ := sent' <;> first | decide | omega

instance {n₁ n₂ n₃ : Int} (h : n₁ < n₂ ∧ n₂ < n₃) (n : Int) (a : Nbuf) :
    Decidable ((threeFrames n₁ n₂ n₃ h).sent n a) :=
  inferInstanceAs (Decidable (_ ∈ _))

theorem threeFrames_above {n₁ n₂ n₃ : Int} (h : n₁ < n₂ ∧ n₂ < n₃) (n : Nat) (a : Nbuf)
    (_ : ssn ≤ n) (sent : (threeFrames n₁ n₂ n₃ h).sent n a) :
    value Receiver.init.rsn < a.counter := by
  simp only [threeFrames, List.mem_cons, Prod.mk.injEq, List.not_mem_nil, or_false] at sent
  obtain ⟨-, rfl⟩ | ⟨-, rfl⟩ | ⟨-, rfl⟩ := sent <;> decide

/-- The frames come across the wrap, out of order, and the queue is cleared before it has
all. -/
theorem honest_not_replayed_wrapping :
    let ops := [Op.packet 0 ⟨1, numberedFrame 3⟩, .packet 0 ⟨4095, numberedFrame 1⟩, .bar 0 4095,
      .clear 0]
    let q := ops.foldl Rod.step (fresh Nbuf 0 4 4095)
    NoneReplayed .init q.sentUp ∧ q.sentUp.map Delivery.head = [some 4095, some 4097] := by
  intro ops q
  let S := threeFrames 4095 4096 4097 (by decide)
  have run : Runs Rod.step (fun q op => op.Valid ∧ S.Reaches 2047 q op) (fresh Nbuf 0 4 4095) q :=
    Runs.of_allowed ⟨⟨by decide, 4097, by decide, by decide, fun _ => by decide⟩,
      ⟨by decide, 4095, by decide, by decide, fun _ => by decide⟩, ⟨by decide, trivial⟩,
      ⟨trivial, trivial⟩, trivial⟩
  exact ⟨honest_not_replayed S (by decide) (threeFrames_above _) run, by decide⟩

/-- A packet that a window of one takes is retired at once. -/
theorem packet_window_one {i : Ideal 1 Nbuf} (isOpen : i.isOpen = true) (empty : i.buffer.Empty)
    {p : Packet Nbuf} (taken : ¬ sequenceNumberLimit / 2 < seqDistance i.buffer.next p.seq) :
    let n := i.buffer.next + seqDistance i.buffer.next p.seq
    (i.packet t p).isOpen = true ∧ (i.packet t p).buffer.Empty ∧
      (i.packet t p).buffer.next = n + 1 ∧
      (i.packet t p).buffer.out = i.buffer.out ++ [(n, p)] := by
  intro n
  obtain ⟨moved, out⟩ := empty.advance (seqDistance i.buffer.next p.seq)
  have next : (i.buffer.advance (seqDistance i.buffer.next p.seq)).next = n :=
    Buffer.advance_next ..
  obtain ⟨drained, next', out'⟩ := moved.drain_put Nat.one_pos p
  simp only [Ideal.packet, isOpen, ↓reduceIte, taken, Nat.add_sub_cancel, moved _]
  rw [next] at drained next' out'
  rw [out] at out'
  exact ⟨isOpen, drained, next', out'⟩

/-- Frame 1 arrives when the head has passed frame 2048: it is 2048 behind and is taken for
frame 4097. -/
theorem replayed_across_the_half :
    ¬ ∀ (S : Sender) (r : Receiver) (q : Queue Nbuf),
      (∀ (n : Nat) a, 2048 ≤ n → S.sent n a → value r.rsn < a.counter) →
      Runs Rod.step (fun q op => op.Valid ∧ S.Reaches 2048 q op) (fresh Nbuf 0 1 2048) q →
      NoneReplayed r q.sentUp := by
  intro claim
  let S := threeFrames 1 2048 2049 (by decide)
  let ops := [Op.packet 0 ⟨2048, numberedFrame 2⟩, .packet 0 ⟨1, numberedFrame 1⟩]
  let q := run (fresh Nbuf 0 1 2048) ops
  have runs : Runs Rod.step (fun q op => op.Valid ∧ S.Reaches 2048 q op) (fresh Nbuf 0 1 2048) q :=
    Runs.of_allowed ⟨⟨by decide, 2048, by decide, by decide, fun _ => by decide⟩,
      ⟨by decide, 1, by decide, by decide, fun _ => by decide⟩, trivial⟩
  have retired : q.sentUp = [⟨some 2048, 2048, numberedFrame 2⟩] ++
      ⟨some 4097, 1, numberedFrame 1⟩ :: [] := by
    have like : Matches ((Ideal.start Nbuf 0 1 2048).run ops) q :=
      run_matches ⟨4096, rfl⟩ 2048 (by decide)
    obtain ⟨isOpen, empty, next, out⟩ :=
      packet_window_one (t := 0) (i := Ideal.start Nbuf 0 1 2048)
        (p := ⟨2048, numberedFrame 2⟩) rfl (fun _ => rfl) (by decide)
    obtain ⟨isOpen', -, -, out'⟩ :=
      packet_window_one (t := 0) (p := ⟨1, numberedFrame 1⟩) isOpen empty
        (by rw [next]; decide)
    have numbers : ((Ideal.start Nbuf 0 1 2048).run ops).buffer.out =
        [(2048, ⟨2048, numberedFrame 2⟩), (4097, ⟨1, numberedFrame 1⟩)] := by
      apply out'.trans
      rw [next, out]
      decide
    have closed : ((Ideal.start Nbuf 0 1 2048).run ops).legacy = [] := like.legacy isOpen'
    rw [like.sentUp, numbers, closed]
    rfl
  exact claim S .init q (threeFrames_above _) runs _ _ _ retired (by decide) (by decide)

end Wave300.Replay
