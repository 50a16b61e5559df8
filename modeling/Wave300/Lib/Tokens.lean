import Mathlib.Data.List.Nodup
import Mathlib.Data.List.Perm.Subperm
import Wave300.Lib.Mailbox

/-!
# Tokens handed over through a ring

Each token of a stock is with one of two parties. One of them passes a token on by writing it into
the next entry of a ring, and does not look whether that entry is empty. The other empties the
entries in turn, and gives a token back only when it is in no entry any more.
-/

namespace Wave300.Lib

variable {τ : Type*}

/-- The entries of the ring, the next one to be written and the next one to be emptied; all tokens
passed on so far, and those that were not given back. -/
structure Exchange (τ : Type*) where
  ring : Nat → Option τ
  idx : Nat
  readIdx : Nat
  passed : List τ
  away : List τ

namespace Exchange

/-- Nothing was passed on yet. -/
def start (away : List τ) : Exchange τ := ⟨fun _ => none, 0, 0, [], away⟩

/-- `x` is written into the next entry. -/
def pass (size : Nat) (e : Exchange τ) (x : τ) : Exchange τ :=
  { ring := Function.update e.ring e.idx (some x)
    idx := nextEntry size e.idx
    readIdx := e.readIdx
    passed := e.passed ++ [x]
    away := x :: e.away }

/-- The next entry is emptied. -/
def collect (size : Nat) (e : Exchange τ) : Exchange τ :=
  match e.ring e.readIdx with
  | none => e
  | some _ =>
    { e with
      ring := Function.update e.ring e.readIdx none
      readIdx := nextEntry size e.readIdx }

def giveBack [DecidableEq τ] (e : Exchange τ) (x : τ) : Exchange τ :=
  { e with away := e.away.erase x }

/-- The other party has `x` and has emptied the entry it was in. -/
def Held (size : Nat) (e : Exchange τ) (x : τ) : Prop :=
  x ∈ e.away ∧ ∀ i < size, e.ring i ≠ some x

instance [DecidableEq τ] (size : Nat) (e : Exchange τ) (x : τ) : Decidable (e.Held size x) :=
  inferInstanceAs (Decidable (_ ∧ _))

/-- What the parties do, one of which has the tokens `mine`. -/
inductive Does [DecidableEq τ] (size : Nat) (mine : List τ) (e : Exchange τ) :
    List τ → Exchange τ → Prop where
  | keeps {mine' : List τ} (same : mine'.Perm mine) : Does size mine e mine' e
  | passes {mine' : List τ} (x : τ) (less : (x :: mine').Perm mine) :
      Does size mine e mine' (e.pass size x)
  | collects {mine' : List τ} (same : mine'.Perm mine) : Does size mine e mine' (e.collect size)
  | givesBack {mine' : List τ} (x : τ) (held : e.Held size x) (more : mine'.Perm (x :: mine)) :
      Does size mine e mine' (e.giveBack x)

/-- Each token of the stock is with one of the parties, and what is in the ring is with the other
one, in one entry. -/
structure Dealt (stock : List τ) (size : Nat) (mine : List τ) (e : Exchange τ) : Prop where
  all : (mine ++ e.away).Perm stock
  away : ∀ i < size, ∀ x, e.ring i = some x → x ∈ e.away
  once : ∀ i < size, ∀ j < size, ∀ x, e.ring i = some x → e.ring j = some x → i = j

variable {stock mine mine' : List τ} {size : Nat} {e e' : Exchange τ} {x : τ}

theorem Dealt.start {theirs : List τ} (all : (mine ++ theirs).Perm stock) :
    Dealt stock size mine (Exchange.start theirs) where
  all := all
  away := by
    intro i _ x found
    cases found
  once := by
    intro i _ j _ x found
    cases found

theorem Dealt.not_away (h : Dealt stock size mine e) (nodup : stock.Nodup) (mem : x ∈ mine) :
    x ∉ e.away :=
  (List.disjoint_of_nodup_append (h.all.nodup_iff.2 nodup)) mem

theorem Dealt.pass (h : Dealt stock size mine e) (nodup : stock.Nodup)
    (less : (x :: mine').Perm mine) : Dealt stock size mine' (e.pass size x) := by
  have mem : x ∈ mine := less.subset List.mem_cons_self
  have absent : ∀ i < size, e.ring i ≠ some x := by
    intro i lt found
    exact h.not_away nodup mem (h.away i lt x found)
  constructor
  case all => exact List.perm_middle.trans ((less.append_right _).trans h.all)
  case away =>
    intro i lt y found
    by_cases here : i = e.idx
    · subst here
      simp only [Exchange.pass, Function.update_self, Option.some.injEq] at found
      exact found ▸ List.mem_cons_self
    · simp only [Exchange.pass, Function.update_of_ne here] at found
      exact List.mem_cons_of_mem _ (h.away i lt y found)
  case once =>
    intro i lti j ltj y foundi foundj
    by_cases herei : i = e.idx <;> by_cases herej : j = e.idx
    · rw [herei, herej]
    · simp only [Exchange.pass, herei, Function.update_self, Function.update_of_ne herej,
        Option.some.injEq] at foundi foundj
      exact absurd (foundi ▸ foundj) (absent j ltj)
    · simp only [Exchange.pass, herej, Function.update_self, Function.update_of_ne herei,
        Option.some.injEq] at foundi foundj
      exact absurd (foundj ▸ foundi) (absent i lti)
    · simp only [Exchange.pass, Function.update_of_ne herei,
        Function.update_of_ne herej] at foundi foundj
      exact h.once i lti j ltj y foundi foundj

theorem ring_of_collect {i : Nat} (found : (e.collect size).ring i = some x) :
    e.ring i = some x := by
  unfold collect at found
  split at found
  · exact found
  · by_cases here : i = e.readIdx
    · subst here
      simp only [Function.update_self, reduceCtorEq] at found
    · simpa only [Function.update_of_ne here] using found

theorem collect_away : (e.collect size).away = e.away := by
  unfold collect
  split <;> rfl

theorem Dealt.collect (h : Dealt stock size mine e) (same : mine'.Perm mine) :
    Dealt stock size mine' (e.collect size) := by
  constructor
  case all =>
    rw [collect_away]
    exact (same.append_right _).trans h.all
  case away =>
    intro i lt x found
    rw [collect_away]
    exact h.away i lt x (ring_of_collect found)
  case once =>
    intro i lti j ltj x foundi foundj
    exact h.once i lti j ltj x (ring_of_collect foundi) (ring_of_collect foundj)

variable [DecidableEq τ]

/-- The order in which the tokens are listed does not matter. -/
theorem Does.of_perm {listed : List τ} (same : mine.Perm listed)
    (h : Does size listed e mine' e') : Does size mine e mine' e' := by
  cases h with
  | keeps same' => exact .keeps (same'.trans same.symm)
  | passes x less => exact .passes x (less.trans same.symm)
  | collects same' => exact .collects (same'.trans same.symm)
  | givesBack x held more => exact .givesBack x held (more.trans (same.symm.cons x))

/-- One token is passed on at a time, by the one who has it. -/
theorem Does.passed (h : Does size mine e mine' e') :
    e'.passed = e.passed ∨ ∃ x, e'.passed = e.passed ++ [x] ∧ x ∈ mine := by
  cases h with
  | keeps | givesBack => exact .inl rfl
  | passes x less => exact .inr ⟨x, rfl, less.subset List.mem_cons_self⟩
  | collects =>
    left
    unfold Exchange.collect
    split <;> rfl

theorem Dealt.giveBack (h : Dealt stock size mine e) (held : e.Held size x)
    (more : mine'.Perm (x :: mine)) : Dealt stock size mine' (e.giveBack x) := by
  constructor
  case all =>
    have back : (x :: (mine ++ e.away.erase x)).Perm (mine ++ e.away) :=
      List.perm_middle.symm.trans ((List.perm_cons_erase held.1).symm.append_left mine)
    exact ((more.append_right _).trans back).trans h.all
  case away =>
    intro i lt y found
    have ne : y ≠ x := by
      rintro rfl
      exact held.2 i lt found
    exact (List.mem_erase_of_ne ne).2 (h.away i lt y found)
  case once => exact h.once

theorem Dealt.step (nodup : stock.Nodup) (h : Dealt stock size mine e)
    (does : Does size mine e mine' e') : Dealt stock size mine' e' := by
  cases does with
  | keeps same => exact ⟨(same.append_right _).trans h.all, h.away, h.once⟩
  | passes x less => exact h.pass nodup less
  | collects same => exact h.collect same
  | givesBack x held more => exact h.giveBack held more

omit [DecidableEq τ]

/-- Nothing was overwritten: the ring holds what was passed on and not collected. -/
structure Fits (size : Nat) (e : Exchange τ) : Prop where
  mail : ∃ r, Mailbox size e.ring e.passed r ∧ e.readIdx = r % size
  idx : e.idx = e.passed.length % size

/-- A full ring holds as many tokens as it has entries. -/
theorem Dealt.le_of_full (h : Dealt stock size mine e) (full : ∀ i < size, e.ring i ≠ none) :
    size ≤ e.away.length := by
  have nodup : ((List.range size).map e.ring).Nodup := by
    apply List.Nodup.map_on _ List.nodup_range
    intro i memi j memj same
    have lti := List.mem_range.1 memi
    obtain ⟨x, found⟩ := Option.ne_none_iff_exists'.1 (full i lti)
    exact h.once i lti j (List.mem_range.1 memj) x found (same ▸ found)
  have sub : (List.range size).map e.ring ⊆ e.away.map some := by
    intro o mem
    obtain ⟨i, memi, rfl⟩ := List.mem_map.1 mem
    have lti := List.mem_range.1 memi
    obtain ⟨x, found⟩ := Option.ne_none_iff_exists'.1 (full i lti)
    exact List.mem_map.2 ⟨x, h.away i lti x found, found.symm⟩
  have le := (nodup.subperm sub).length_le
  rwa [List.length_map, List.length_map, List.length_range] at le

/-- With an entry for each token of the stock, the entry that is written next is empty. -/
theorem Dealt.room (h : Dealt stock size mine e) (fits : Fits size e)
    (enough : stock.length ≤ size) (mem : x ∈ mine) : e.ring e.idx = none := by
  obtain ⟨r, mail, -⟩ := fits.mail
  by_contra found
  have all : e.passed.length = r + size := by
    apply Nat.le_antisymm mail.fits
    apply Nat.le_of_not_lt
    intro lt
    rw [fits.idx, mail.empty _ (Nat.le_refl _) lt] at found
    exact found rfl
  have full : ∀ i < size, e.ring i ≠ none := by
    intro i lt
    -- the last written entry number that falls on `i`
    obtain ⟨j, ge, below, rfl⟩ : ∃ j, r ≤ j ∧ j < r + size ∧ j % size = i := by
      refine ⟨r + (i + size - r % size) % size, Nat.le_add_right .., ?_, ?_⟩
      · exact Nat.add_lt_add_left (Nat.mod_lt _ (Nat.zero_lt_of_lt lt)) r
      · have rlt := Nat.mod_lt r (Nat.zero_lt_of_lt lt)
        rw [Nat.add_mod_mod, ← Nat.mod_add_mod,
          show r % size + (i + size - r % size) = i + size by omega, Nat.add_mod_right,
          Nat.mod_eq_of_lt lt]
    rw [mail.full j ge (all ▸ below), List.getElem?_eq_getElem (all ▸ below)]
    exact Option.some_ne_none _
  have lengths := h.all.length_eq
  have le := h.le_of_full full
  have pos := List.length_pos_of_mem mem
  rw [List.length_append] at lengths
  omega

theorem Fits.start (size : Nat) (away : List τ) : Fits size (Exchange.start away) where
  mail := ⟨0, Mailbox.start size, (Nat.zero_mod size).symm⟩
  idx := (Nat.zero_mod size).symm

theorem Fits.pass (h : Fits size e) (pos : 0 < size) (room : e.ring e.idx = none) :
    Fits size (e.pass size x) := by
  obtain ⟨r, mail, read⟩ := h.mail
  rw [h.idx] at room
  constructor
  case mail =>
    refine ⟨r, ?_, read⟩
    simp only [Exchange.pass, h.idx]
    exact mail.write pos room x
  case idx =>
    simp only [Exchange.pass, h.idx, List.length_append, List.length_singleton]
    exact nextEntry_mod pos _

theorem Fits.collect (h : Fits size e) (pos : 0 < size) : Fits size (e.collect size) := by
  unfold Exchange.collect
  split
  · exact h
  · rename_i y found
    obtain ⟨r, mail, read⟩ := h.mail
    rw [read] at found
    have more : r < e.passed.length := by
      apply Nat.lt_of_le_of_ne mail.le
      intro last
      rw [(mail.read_none pos).2 last] at found
      cases found
    refine ⟨⟨r + 1, ?_, ?_⟩, h.idx⟩
    · rw [read]
      exact mail.consume more
    · rw [read]
      exact nextEntry_mod pos r

/-- With an entry for each token of the stock nothing is ever overwritten. -/
theorem Fits.step [DecidableEq τ] (h : Fits size e) (dealt : Dealt stock size mine e)
    (enough : stock.length ≤ size) (pos : 0 < size) (does : Does size mine e mine' e') :
    Fits size e' := by
  cases does with
  | keeps => exact h
  | passes x less =>
    exact h.pass pos (dealt.room h enough (less.subset List.mem_cons_self))
  | collects => exact h.collect pos
  | givesBack => exact ⟨h.mail, h.idx⟩

end Exchange

end Wave300.Lib
