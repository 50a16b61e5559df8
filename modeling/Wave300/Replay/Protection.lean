import Wave300.Lib.Trace
import Wave300.Replay.Detection

/-!
# Replay protection over runs

The stored counter is read as a big-endian number of 48 bits. It is advanced by the fragments
modulo `2 ^ 48`, so that a frame near the end of the range brings it back to the start.
-/

namespace Wave300.Replay

open Lib

/-- The number six bytes stand for. -/
def value (rc : Vector UInt8 6) : Nat := ofBytes rc.toList

/-- The frame comes from a known station and is protected by TKIP or CCMP. -/
def Nbuf.Protected (nbuf : Nbuf) : Prop :=
  ∃ sta, nbuf.srcSta = some sta ∧ getCipher nbuf sta ∈ [Cipher.tkip, .ccmp]

/-- The bytes of the counter of a frame. -/
def Nbuf.rc (nbuf : Nbuf) : Vector UInt8 6 :=
  match nbuf.srcSta.bind fun sta => parseAndGetReplayCounter nbuf (getCipher nbuf sta) with
  | some rc => rc
  | none => Vector.replicate 6 0

/-- The counter of a frame, as a number. -/
def Nbuf.counter (nbuf : Nbuf) : Nat := value nbuf.rc

/-- The firmware marked a failure of the MIC. -/
def Nbuf.MicFailed (nbuf : Nbuf) : Prop := nbuf.rsnBits &&& umiNotificationMicFailure ≠ 0

instance (nbuf : Nbuf) : Decidable nbuf.MicFailed := inferInstanceAs (Decidable (_ ≠ _))

theorem value_lt (rc : Vector UInt8 6) : value rc < 2 ^ 48 := by
  have bound := ofBytes_lt rc.toList
  rw [Vector.length_toList] at bound
  exact bound

theorem memcmp_rc_nonpos_iff (rc lastRc : Vector UInt8 6) :
    memcmp rc.toList lastRc.toList ≤ 0 ↔ value rc ≤ value lastRc := by
  apply memcmp_nonpos_iff
  rw [Vector.length_toList, Vector.length_toList]

theorem Nbuf.Protected.parse {nbuf : Nbuf} (h : nbuf.Protected) :
    ∃ sta, nbuf.srcSta = some sta ∧
      parseAndGetReplayCounter nbuf (getCipher nbuf sta) = some nbuf.rc := by
  obtain ⟨sta, known, cipher⟩ := h
  refine ⟨sta, known, ?_⟩
  rw [Nbuf.rc, known, Option.bind_some]
  obtain tkip | ccmp : getCipher nbuf sta = .tkip ∨ getCipher nbuf sta = .ccmp := by
    simpa using cipher
  · rw [tkip]; rfl
  · rw [ccmp]; rfl

theorem value_addFrags (rc : Vector UInt8 6) (n : Nat) :
    value (addFrags rc n) = (value rc + n) % 2 ^ 48 := by
  have upper : ofBytes ([0, 0] ++ rc.toList) = value rc :=
    (ofBytes_zero_cons _).trans (ofBytes_zero_cons _)
  rw [value, addFrags, Vector.toList_mk, upper, drop_toBytes 2 6, ofBytes_toBytes]
  exact Nat.mod_mod_of_dvd _ ⟨2 ^ 16, by decide⟩

/-- What is stored for a frame that is sent up. -/
theorem value_stored (nbuf : Nbuf) :
    value (if nfrags nbuf ≠ 0 then addFrags nbuf.rc (nfrags nbuf) else nbuf.rc) =
      (nbuf.counter + nfrags nbuf) % 2 ^ 48 := by
  split
  case isTrue => exact value_addFrags nbuf.rc (nfrags nbuf)
  case isFalse none =>
    rw [not_not.1 none, Nat.add_zero]
    exact (Nat.mod_eq_of_lt (value_lt nbuf.rc)).symm

/-- The check takes a frame for a replay when its counter is not above the stored one. -/
theorem detect_eq_replay_iff (r : Receiver) {nbuf : Nbuf} (h : nbuf.Protected) :
    (r.detect nbuf).1 = .replay ↔ nbuf.counter ≤ value r.rsn := by
  obtain ⟨sta, known, rc⟩ := h.parse
  have order : _ ↔ nbuf.counter ≤ value r.rsn := memcmp_rc_nonpos_iff nbuf.rc r.rsn
  simp only [Receiver.detect, known, detectReplay, rc]
  rw [← order]
  by_cases old : memcmp nbuf.rc.toList r.rsn.toList ≤ 0
  · simp [old]
  · by_cases mic : nbuf.rsnBits &&& umiNotificationMicFailure ≠ 0
    · simp [old, mic]
    · simp [old, mic]

/-- Everything the check of a protected frame does to the counter and to the frame. -/
theorem detectReplayOrSendup_cases (r : Receiver) {nbuf : Nbuf} (h : nbuf.Protected) :
    let r' := r.detectReplayOrSendup nbuf
    (value r.rsn < nbuf.counter ∧ ¬ nbuf.MicFailed ∧ r'.sentUp = r.sentUp ++ [nbuf] ∧
      r'.freed = r.freed ∧ value r'.rsn = (nbuf.counter + nfrags nbuf) % 2 ^ 48) ∨
    ((nbuf.counter ≤ value r.rsn ∨ nbuf.MicFailed) ∧ r'.sentUp = r.sentUp ∧
      r'.freed = r.freed ++ [nbuf] ∧ r'.rsn = r.rsn) := by
  obtain ⟨sta, known, rc⟩ := h.parse
  have order : _ ↔ nbuf.counter ≤ value r.rsn := memcmp_rc_nonpos_iff nbuf.rc r.rsn
  simp only [Receiver.detectReplayOrSendup, Receiver.detect, known, detectReplay, rc]
  by_cases old : memcmp nbuf.rc.toList r.rsn.toList ≤ 0
  · right
    simp [old, order.1 old]
  · by_cases mic : nbuf.rsnBits &&& umiNotificationMicFailure ≠ 0
    · right
      simp [old, mic, Nbuf.MicFailed]
    · left
      rw [if_neg old, if_neg mic]
      exact ⟨Nat.lt_of_not_le fun le => old (order.2 le), mic, rfl, rfl, value_stored nbuf⟩

/-- A frame that the check lets pass does not carry the counter past the end of its range. -/
def Receiver.Fits (r : Receiver) (nbuf : Nbuf) : Prop :=
  value r.rsn < nbuf.counter → ¬ nbuf.MicFailed → nbuf.counter + nfrags nbuf < 2 ^ 48

/-- What is stored is past every frame sent up, and these came in increasing order. -/
structure Guarded (r : Receiver) : Prop where
  past : ∀ nbuf ∈ r.sentUp, nbuf.counter ≤ value r.rsn
  increasing : r.sentUp.Pairwise fun a b => a.counter < b.counter

theorem detectReplayOrSendup_le {r : Receiver} {nbuf : Nbuf} (protect : nbuf.Protected)
    (fits : r.Fits nbuf) : value r.rsn ≤ value (r.detectReplayOrSendup nbuf).rsn := by
  obtain ⟨newer, mic, -, -, stored⟩ | ⟨-, -, -, kept⟩ := detectReplayOrSendup_cases r protect
  · rw [stored, Nat.mod_eq_of_lt (fits newer mic)]
    omega
  · rw [kept]

theorem Guarded.step {r : Receiver} (h : Guarded r) {nbuf : Nbuf} (protect : nbuf.Protected)
    (fits : r.Fits nbuf) : Guarded (r.detectReplayOrSendup nbuf) := by
  obtain ⟨newer, mic, sent, -, stored⟩ | ⟨-, sent, -, kept⟩ := detectReplayOrSendup_cases r protect
  · rw [Nat.mod_eq_of_lt (fits newer mic)] at stored
    constructor
    case past =>
      intro other earlier
      rw [sent, List.mem_append, List.mem_singleton] at earlier
      obtain earlier | rfl := earlier
      · have before := h.past other earlier
        omega
      · omega
    case increasing =>
      rw [sent, List.pairwise_append]
      refine ⟨h.increasing, List.pairwise_singleton .., ?_⟩
      intro other earlier last here
      rw [List.mem_singleton.1 here]
      have before := h.past other earlier
      omega
  · constructor
    case past => rw [sent, kept]; exact h.past
    case increasing => rw [sent]; exact h.increasing

/-- Replay protection in a state of a run that takes the steps `ok` allows. -/
structure Protects (ok : Receiver → Nbuf → Prop) (r : Receiver) : Prop where
  /-- The stored counter never decreases from here on. -/
  monotone : ∀ r', Runs Receiver.detectReplayOrSendup ok r r' → value r.rsn ≤ value r'.rsn
  /-- Each frame sent up has a greater counter than all before it. -/
  increasing : r.sentUp.Pairwise fun a b => a.counter < b.counter
  /-- A frame that is dropped leaves the counter as it was. -/
  dropped : ∀ nbuf, nbuf.Protected → (r.detectReplayOrSendup nbuf).freed = r.freed ++ [nbuf] →
    (r.detectReplayOrSendup nbuf).rsn = r.rsn

/-- Replay protection holds in every run in which no frame carries the counter past its
range. -/
theorem replay_protection {r₀ r : Receiver} (start : r₀.sentUp = [])
    (run : Runs Receiver.detectReplayOrSendup (fun r nbuf => nbuf.Protected ∧ r.Fits nbuf) r₀ r) :
    Protects (fun r nbuf => nbuf.Protected ∧ r.Fits nbuf) r := by
  have guarded : Guarded r := by
    apply run.invariant
    · constructor
      case past => rw [start]; simp
      case increasing => rw [start]; exact .nil
    · intro r nbuf h allowed
      exact h.step allowed.1 allowed.2
  constructor
  case monotone =>
    intro r' later
    induction later with
    | start => exact Nat.le_refl _
    | step nbuf _ allowed ih => exact ih.trans (detectReplayOrSendup_le allowed.1 allowed.2)
  case increasing => exact guarded.increasing
  case dropped =>
    intro nbuf protect dropped
    obtain ⟨-, -, -, freed, -⟩ | ⟨-, -, -, kept⟩ := detectReplayOrSendup_cases r protect
    · rw [freed] at dropped
      simp at dropped
    · exact kept

instance (nbuf : Nbuf) : Decidable nbuf.Protected :=
  match h : nbuf.srcSta with
  | some sta => decidable_of_iff (getCipher nbuf sta ∈ [Cipher.tkip, .ccmp])
      (by simp [Nbuf.Protected, h])
  | none => .isFalse (by simp [Nbuf.Protected, h])

instance (r : Receiver) (nbuf : Nbuf) : Decidable (r.Fits nbuf) :=
  inferInstanceAs (Decidable (_ → _ → _))

/-- A frame of a station with CCMP, with the RSC bytes as they stand in its header. -/
def ccmpFrame (rsnBits : UInt8) (rscBuf : Vector UInt8 8) : Nbuf where
  groupCipher := .ccmp
  srcSta := some ⟨#v[2, 0, 0, 0, 0, 1], .ccmp⟩
  directed := true
  rsnBits := rsnBits
  rscBuf := rscBuf
  hSource := #v[2, 0, 0, 0, 0, 1]

def Receiver.init : Receiver := ⟨⟨0, 0, []⟩, Vector.replicate 6 0, [], []⟩

/-- Counter 5 with two fragments, a replay of its second one, a frame with a failed MIC, and
counter 8. -/
theorem replay_protection_mixed :
    let frames :=
      [ccmpFrame 0x20 #v[5, 0, 0, 0, 0, 0, 0, 0], ccmpFrame 0 #v[6, 0, 0, 0, 0, 0, 0, 0],
       ccmpFrame 0x01 #v[9, 0, 0, 0, 0, 0, 0, 0], ccmpFrame 0 #v[8, 0, 0, 0, 0, 0, 0, 0]]
    let r := frames.foldl Receiver.detectReplayOrSendup .init
    r.sentUp.length = 2 ∧ r.sentUp.Pairwise fun a b => a.counter < b.counter := by
  intro frames r
  have run : Runs Receiver.detectReplayOrSendup (fun r nbuf => nbuf.Protected ∧ r.Fits nbuf)
    .init r := Runs.of_allowed (by decide)
  exact ⟨by decide, (replay_protection rfl run).increasing⟩

/-- The last counter of the range, with one fragment: the stored counter becomes zero, and the
same frame is sent up again. -/
theorem last_counter_replayed :
    ¬ ∀ r, Runs Receiver.detectReplayOrSendup (fun _ nbuf => nbuf.Protected) .init r →
      Protects (fun _ nbuf => nbuf.Protected) r := by
  intro claim
  let last := ccmpFrame 0x10 #v[0xff, 0xff, 0, 0, 0xff, 0xff, 0xff, 0xff]
  have increasing := (claim _ (Runs.of_allowed (l := [last, last]) (by decide))).increasing
  exact absurd increasing (by decide)

end Wave300.Replay
