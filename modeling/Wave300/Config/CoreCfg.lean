import Wave300.Config.Acl
import Wave300.ParamDb.Strings

/-!
# Reading the configuration back

`core.c`: `_mtlk_core_get_core_cfg`, which answers with a code and a `mtlk_gen_core_cfg_t`, and
`mtlk_clipboard.c`, in which the answer goes. Nickname and ESSID are read with one variable for the
size of the buffer and of the parameter.
-/

namespace Wave300.Config

open L2nat Lib ParamDb

/-- `MTLK_ESSID_MAX_SIZE` -/
def mtlkEssidMaxSize : Nat := 33

/-- `PARAM_DB_CORE_NICK_NAME` -/
def paramDbCoreNickName : Nat := 39

/-- `PARAM_DB_CORE_ESSID` -/
def paramDbCoreEssid : Nat := 40

/-- A string that a field of the configuration has room for. -/
structure Essid extends CString where
  short : chars.length < mtlkEssidMaxSize

theorem Essid.clean_empty : (0 : UInt8) ∉ [] := List.not_mem_nil

def Essid.empty : Essid := ⟨⟨[], Essid.clean_empty⟩, by decide⟩

/-- What the other items are read from: integers of the parameter database, and what their getters
return, those of `_mtlk_master_core_get_core_cfg` for the master core. -/
structure Settings where
  bridgeMode : Nat
  apForwarding : Nat
  reliableMcast : Nat
  connected : Bool
  networkModeCur : Nat
  networkModeCfg : Nat
  bssid : List UInt8
  rateset : Nat → Nat × Nat × Nat
  countriesSupported : List (List UInt8)
  isHiddenSsid : Bool
  macSoftResetEnable : Nat
  upRescanExemptionTimeSec : Nat
  userSpectrumMode : Nat
  channel : Nat
  userBonding : Nat
  freqBandCur : Nat

/-- An array of characters, and whether it is filled. -/
structure Text where
  bytes : Nat → UInt8
  filled : Bool

/-- The addresses and the masks of the list, as they are copied. -/
structure Listing where
  macsToSet : Nat → Mac
  macMask : Nat → Mac
  numMacs : Nat
  filled : Bool

/-- `mtlk_gen_core_cfg_t`, of which an item is there if it is filled. -/
structure GenCoreCfg where
  bridgeMode : Option Nat
  apForwarding : Option Nat
  reliableMulticast : Option Nat
  netMode : Option Nat
  bssid : Option (List UInt8)
  rates : Option (Nat × Nat × Nat)
  countriesSupported : Option (List (List UInt8))
  macs : Listing
  numMacsToSet : Option Nat
  nickname : Text
  essid : Text
  isHiddenSsid : Option Bool
  dbgSwWdEnable : Option Nat
  upRescanExemptionTime : Option Nat
  spectrumMode : Option Nat
  channel : Option Nat
  bonding : Option Nat
  frequencyBandCur : Option Nat

/-- What is stored. -/
structure Stored where
  pdb : Pdb
  acl : Acl

/-- A round of the loop over the list. -/
def pushMac (a : Acl) (l : Listing) (i : Fin maxAddressesInAcl) : Listing :=
  if a.acl i = 0 then l
  else
    { macsToSet := Function.update l.macsToSet l.numMacs (a.acl i)
      macMask := Function.update l.macMask l.numMacs (a.aclMask i)
      numMacs := l.numMacs + 1
      filled := true }

def listing (a : Acl) : Listing :=
  (List.finRange maxAddressesInAcl).foldl (pushMac a) ⟨fun _ => 0, fun _ => 0, 0, false⟩

/-- `MTLK_CFG_SET_ITEM_BY_FUNC` -/
def Text.of (r : GetResult) : Text := ⟨r.buffer, r.result = .ok⟩

/-- The structure, and the code of the last item that has one. -/
def fillCoreCfg (s : Settings) (c : Stored) : GenCoreCfg × ParamDb.Err :=
  let nickname := mtlkPdbGetString c.pdb paramDbCoreNickName (fun _ => 0) mtlkEssidMaxSize
  let essid := mtlkPdbGetString c.pdb paramDbCoreEssid (fun _ => 0) nickname.size
  ({ bridgeMode := some s.bridgeMode
     apForwarding := some s.apForwarding
     reliableMulticast := some s.reliableMcast
     netMode := some (if s.connected then s.networkModeCur else s.networkModeCfg)
     bssid := some (if s.connected then s.bssid else List.replicate 6 0)
     rates := some (s.rateset s.networkModeCur)
     countriesSupported := some s.countriesSupported
     macs := listing c.acl
     numMacsToSet := some (listing c.acl).numMacs
     nickname := .of nickname
     essid := .of essid
     isHiddenSsid := some s.isHiddenSsid
     dbgSwWdEnable := some s.macSoftResetEnable
     upRescanExemptionTime := some s.upRescanExemptionTimeSec
     spectrumMode := some s.userSpectrumMode
     channel := some s.channel
     bonding := some s.userBonding
     frequencyBandCur := some s.freqBandCur }, essid.result)

/-- An entry of a clipboard: a code, a structure, or the size of one without the structure. -/
inductive Entry where
  | code (res : ParamDb.Err)
  | cfg (c : GenCoreCfg)
  | missing

/-- `mtlk_clpb_push`, where an entry and the copy of the data may be allocated or not. Without data,
nothing is copied. -/
def mtlkClpbPush (clpb : List Entry) (data : Option Entry) (entry copy : Bool) :
    List Entry × ParamDb.Err :=
  if !entry then (clpb, .noMem)
  else
    match data with
    | none => (clpb ++ [.missing], .ok)
    | some data => if copy then (clpb ++ [data], .ok) else (clpb, .noMem)

/-- Which allocations succeed: that of the structure, and those of each push. -/
structure Allocs where
  cfg : Bool
  codeEntry : Bool
  codeCopy : Bool
  cfgEntry : Bool
  cfgCopy : Bool

/-- `_mtlk_core_get_core_cfg`. What is pushed after the code depends on how its push went. -/
def getCoreCfg (s : Settings) (c : Stored) (alloc : Allocs) : List Entry × ParamDb.Err :=
  let (coreCfg, res) :=
    if alloc.cfg then
      let (coreCfg, res) := fillCoreCfg s c
      (some (Entry.cfg coreCfg), res)
    else (none, .noMem)
  let (clpb, res) := mtlkClpbPush [] (some (.code res)) alloc.codeEntry alloc.codeCopy
  if res = .ok then mtlkClpbPush clpb coreCfg alloc.cfgEntry alloc.cfgCopy else (clpb, res)

/-! ## What is stored -/

def initialNickName : InitialValue :=
  ⟨paramDbCoreNickName, 0, mtlkEssidMaxSize, .string Essid.empty.toCString, by decide, by decide⟩

def initialEssid : InitialValue :=
  ⟨paramDbCoreEssid, 0, mtlkEssidMaxSize, .string Essid.empty.toCString, by decide, by decide⟩

/-- A new core, with what the memory of its strings held. -/
def Stored.init (mem mem' : Nat → UInt8) : Stored where
  pdb := (initValue (initValue .zeroed initialNickName (some mem)).pdb initialEssid (some mem')).pdb
  acl := .init

inductive Change where
  | nickname (value : Essid) (found : Found)
  | essid (value : Essid) (found : Found)
  | acl (c : Call)

def Stored.step (c : Stored) : Change → Stored
  | .nickname value found =>
    { c with pdb := (mtlkPdbSetString c.pdb paramDbCoreNickName value.toCString found).pdb }
  | .essid value found =>
    { c with pdb := (mtlkPdbSetString c.pdb paramDbCoreEssid value.toCString found).pdb }
  | .acl call => { c with acl := (c.acl.call call).1 }

/-- The nickname that was set last. -/
def lastNickname (changes : List Change) : Essid :=
  changes.foldl (fun last c => match c with | .nickname value _ => value | _ => last) .empty

def lastEssid (changes : List Change) : Essid :=
  changes.foldl (fun last c => match c with | .essid value _ => value | _ => last) .empty

/-- The places of the list that are in use. -/
def Acl.used (a : Acl) : List (Fin maxAddressesInAcl) :=
  (List.finRange maxAddressesInAcl).filter fun i => a.acl i ≠ 0

/-- The structure has both strings whole and the list in order. -/
structure Complete (c : Stored) (nickname essid : Essid) (g : GenCoreCfg) : Prop where
  nickname : g.nickname.filled = true ∧ Terminated g.nickname.bytes nickname.chars
  essid : g.essid.filled = true ∧ Terminated g.essid.bytes essid.chars
  count : g.numMacsToSet = some c.acl.used.length
  macs : slice g.macs.macsToSet 0 c.acl.used.length = c.acl.used.map c.acl.acl
  masks : slice g.macs.macMask 0 c.acl.used.length = c.acl.used.map c.acl.aclMask

/-- All is allocated. -/
def Allocs.All (alloc : Allocs) : Prop :=
  (alloc.cfg && alloc.codeEntry && alloc.codeCopy && alloc.cfgEntry && alloc.cfgCopy) = true

/-- The answer is a code and the structure when all is allocated, and else no more than a code,
which is an error where there is no structure. -/
structure ReadBack (s : Settings) (c : Stored) (nickname essid : Essid) (alloc : Allocs) :
    Prop where
  complete : alloc.All → ∃ g, Complete c nickname essid g ∧
    (getCoreCfg s c alloc).1 = [.code .ok, .cfg g]
  failed : ¬ alloc.All → (getCoreCfg s c alloc).1 = [] ∨
    ∃ res, (getCoreCfg s c alloc).1 = [.code res] ∧ (alloc.cfg = false → res ≠ .ok)

variable {handle : Value} {value nickname essid : Essid} {a : Acl} {c : Stored}

/-! ## The strings -/

/-- A parameter with its first block, which has a string but for the last byte. -/
structure Keeps (handle : Value) (value : Essid) : Prop where
  size : handle.size = mtlkEssidMaxSize
  block : ∃ b, handle.valuePtr = some b ∧ ∀ i < lessOne mtlkEssidMaxSize,
    b.bytes i = text value.chars i

theorem lessOne_max : lessOne mtlkEssidMaxSize = 32 := rfl

/-- A string that the configuration has room for goes into the block there is. -/
theorem Keeps.set (h : Keeps handle nickname) (value : Essid) (found : Found) :
    Keeps (mtlkPdbFastSetString handle value.toCString found).handle value := by
  obtain ⟨b, ptr, -⟩ := h.block
  have short := value.short
  simp only [mtlkEssidMaxSize] at short
  have fits : ¬ lessOne handle.size < value.chars.length % 2 ^ 32 := by
    rw [h.size, lessOne_max]
    omega
  rw [setString_fits fits]
  constructor
  case size => exact h.size
  case block =>
    simp only [setChars, ptr, h.size, Option.map_some]
    refine ⟨_, rfl, fun i below => ?_⟩
    exact strncpy_text value.clean (fun _ _ => rfl) below

/-- It is read whole into a buffer of zeros. -/
theorem Keeps.get (h : Keeps handle value) :
    (mtlkPdbFastGetString handle (fun _ => 0) mtlkEssidMaxSize).result = .ok ∧
      (mtlkPdbFastGetString handle (fun _ => 0) mtlkEssidMaxSize).size = mtlkEssidMaxSize ∧
      Terminated (mtlkPdbFastGetString handle (fun _ => 0) mtlkEssidMaxSize).buffer
        value.chars := by
  obtain ⟨b, ptr, same⟩ := h.block
  have whole : strncpy (fun _ => 0) b.bytes (lessOne mtlkEssidMaxSize) = text value.chars := by
    funext i
    by_cases below : i < lessOne mtlkEssidMaxSize
    · exact strncpy_text value.clean same below
    · rw [strncpy_beyond (Nat.le_of_not_lt below)]
      have short := value.short
      rw [lessOne_max] at below
      simp only [mtlkEssidMaxSize] at short
      exact (List.getD_eq_default _ _ (by omega)).symm
  simp only [mtlkPdbFastGetString, ptr, Option.elim_some, h.size, Nat.lt_irrefl, if_false, whole,
    true_and]
  exact text_terminated value.clean

theorem keeps_initial (pdb : Pdb) (id : Nat) (mem : Nat → UInt8) (pos : 0 < mtlkEssidMaxSize)
    (lt : mtlkEssidMaxSize < 2 ^ 32) :
    Keeps ((initValue pdb ⟨id, 0, mtlkEssidMaxSize, .string Essid.empty.toCString, pos, lt⟩
      (some mem)).pdb id) .empty := by
  simp only [initValue, mtlkOsalMemAlloc, Option.map_some, Function.update_self]
  refine ⟨rfl, _, rfl, fun i below => ?_⟩
  exact strncpy_text Essid.empty.clean (fun _ _ => rfl) below

/-- What is stored after a core began, with the strings that were set last. -/
structure Holds (c : Stored) (nickname essid : Essid) : Prop where
  nickname : Keeps (c.pdb paramDbCoreNickName) nickname
  essid : Keeps (c.pdb paramDbCoreEssid) essid

theorem holds_init (mem mem' : Nat → UInt8) : Holds (.init mem mem') .empty .empty := by
  constructor
  case nickname =>
    have other : paramDbCoreNickName ≠ initialEssid.id := by decide
    simp only [Stored.init, initValue_of_ne other]
    exact keeps_initial .zeroed paramDbCoreNickName mem (by decide) (by decide)
  case essid =>
    exact keeps_initial (initValue .zeroed initialNickName (some mem)).pdb paramDbCoreEssid mem'
      (by decide) (by decide)

theorem Holds.step (h : Holds c nickname essid) (change : Change) : Holds (c.step change)
    (match change with | .nickname value _ => value | _ => nickname)
    (match change with | .essid value _ => value | _ => essid) := by
  cases change with
  | nickname value found =>
    constructor
    case nickname =>
      simp only [Stored.step, mtlkPdbSetString, Function.update_self]
      exact h.nickname.set value found
    case essid =>
      have other : paramDbCoreEssid ≠ paramDbCoreNickName := by decide
      simp only [Stored.step, mtlkPdbSetString, Function.update_of_ne other]
      exact h.essid
  | essid value found =>
    constructor
    case nickname =>
      have other : paramDbCoreNickName ≠ paramDbCoreEssid := by decide
      simp only [Stored.step, mtlkPdbSetString, Function.update_of_ne other]
      exact h.nickname
    case essid =>
      simp only [Stored.step, mtlkPdbSetString, Function.update_self]
      exact h.essid.set value found
  | acl call => exact ⟨h.nickname, h.essid⟩

theorem holds_run (mem mem' : Nat → UInt8) (changes : List Change) :
    Holds (changes.foldl Stored.step (.init mem mem')) (lastNickname changes)
      (lastEssid changes) := by
  induction changes using List.reverseRecOn with
  | nil => exact holds_init mem mem'
  | append_singleton changes change ih =>
    simp only [lastNickname, lastEssid, List.foldl_append, List.foldl_cons, List.foldl_nil]
    exact ih.step change

/-! ## The list -/

/-- The loop copies the places in use behind what it has copied. -/
theorem pushMac_foldl (a : Acl) (places : List (Fin maxAddressesInAcl)) (l : Listing) :
    let used := places.filter fun i => a.acl i ≠ 0
    let l' := places.foldl (pushMac a) l
    l'.numMacs = l.numMacs + used.length ∧
      slice l'.macsToSet 0 l'.numMacs = slice l.macsToSet 0 l.numMacs ++ used.map a.acl ∧
      slice l'.macMask 0 l'.numMacs = slice l.macMask 0 l.numMacs ++ used.map a.aclMask := by
  induction places generalizing l with
  | nil => simp
  | cons i places ih =>
    obtain ⟨count, macs, masks⟩ := ih (pushMac a l i)
    by_cases free : a.acl i = 0
    · have same : pushMac a l i = l := if_pos free
      have skipped : (i :: places).filter (fun i => a.acl i ≠ 0) =
          places.filter fun i => a.acl i ≠ 0 :=
        List.filter_cons_of_neg (by simp [free])
      rw [same] at count macs masks
      simp only [List.foldl_cons, same, skipped]
      exact ⟨count, macs, masks⟩
    · have behind (m : Nat → Mac) (x : Mac) :
          slice (Function.update m l.numMacs x) 0 (l.numMacs + 1) = slice m 0 l.numMacs ++ [x] := by
        have front : slice (Function.update m l.numMacs x) 0 l.numMacs = slice m 0 l.numMacs :=
          slice_congr fun j _ below => Function.update_of_ne (by omega) _ _
        rw [slice_append, front]
        simp [slice]
      have pushed : pushMac a l i =
          { macsToSet := Function.update l.macsToSet l.numMacs (a.acl i)
            macMask := Function.update l.macMask l.numMacs (a.aclMask i)
            numMacs := l.numMacs + 1
            filled := true } := if_neg free
      have taken : (i :: places).filter (fun i => a.acl i ≠ 0) =
          i :: places.filter fun i => a.acl i ≠ 0 :=
        List.filter_cons_of_pos (decide_eq_true free)
      rw [pushed] at count macs masks
      simp only [behind, List.append_assoc] at count macs masks
      simp only [List.foldl_cons, pushed, taken, List.map_cons, List.length_cons]
      exact ⟨by omega, macs, masks⟩

theorem listing_eq (a : Acl) : (listing a).numMacs = a.used.length ∧
    slice (listing a).macsToSet 0 a.used.length = a.used.map a.acl ∧
    slice (listing a).macMask 0 a.used.length = a.used.map a.aclMask := by
  obtain ⟨count, macs, masks⟩ :=
    pushMac_foldl a (List.finRange maxAddressesInAcl) ⟨fun _ => 0, fun _ => 0, 0, false⟩
  have length : (listing a).numMacs = a.used.length := count.trans (Nat.zero_add _)
  have none (m : Nat → Mac) : slice m 0 0 = [] := rfl
  refine ⟨length, ?_, ?_⟩
  · rw [← length]
    exact macs.trans (by rw [none, List.nil_append]; rfl)
  · rw [← length]
    exact masks.trans (by rw [none, List.nil_append]; rfl)

/-! ## The answer -/

theorem fillCoreCfg_complete (s : Settings) (h : Holds c nickname essid) :
    (fillCoreCfg s c).2 = .ok ∧ Complete c nickname essid (fillCoreCfg s c).1 := by
  obtain ⟨nick, size, shown⟩ := h.nickname.get
  obtain ⟨read, -, shown'⟩ := h.essid.get
  have listed := listing_eq c.acl
  simp only [fillCoreCfg, mtlkPdbGetString, size]
  refine ⟨read, ⟨?_, shown⟩, ⟨?_, shown'⟩, ?_, listed.2.1, listed.2.2⟩
  · simp [Text.of, nick]
  · simp [Text.of, read]
  · simp [listed.1]

/-- With the strings that fit, the answer is right unless the structure cannot be allocated and
what stands for it can. -/
theorem readBack_iff (mem mem' : Nat → UInt8) (changes : List Change) (s : Settings)
    (alloc : Allocs) :
    ReadBack s (changes.foldl Stored.step (.init mem mem')) (lastNickname changes)
        (lastEssid changes) alloc ↔
      (alloc.codeEntry = true → alloc.codeCopy = true → alloc.cfgEntry = true →
        alloc.cfg = true) := by
  have holds := holds_run mem mem' changes
  generalize changes.foldl Stored.step (.init mem mem') = c at holds ⊢
  obtain ⟨ok, complete⟩ := fillCoreCfg_complete s holds
  obtain ⟨cfg, codeEntry, codeCopy, cfgEntry, cfgCopy⟩ := alloc
  constructor
  · rintro right rfl rfl rfl
    cases cfg with
    | true => rfl
    | false =>
      obtain none | ⟨res, code, -⟩ := right.failed (by simp [Allocs.All])
      · simp [getCoreCfg, mtlkClpbPush] at none
      · simp [getCoreCfg, mtlkClpbPush] at code
  · intro there
    refine ⟨?_, ?_⟩
    · intro all
      simp only [Allocs.All, Bool.and_eq_true] at all
      obtain ⟨⟨⟨⟨rfl, rfl⟩, rfl⟩, rfl⟩, rfl⟩ := all
      exact ⟨_, complete, by simp [getCoreCfg, mtlkClpbPush, ok]⟩
    · intro some
      cases codeEntry with
      | false => exact .inl (by simp [getCoreCfg, mtlkClpbPush])
      | true =>
        cases codeCopy with
        | false => exact .inl (by simp [getCoreCfg, mtlkClpbPush])
        | true =>
          right
          cases cfgEntry with
          | false =>
            cases cfg with
            | false => exact ⟨.noMem, by simp [getCoreCfg, mtlkClpbPush], fun _ => by simp⟩
            | true => exact ⟨.ok, by simp [getCoreCfg, mtlkClpbPush, ok], fun lost => by cases lost⟩
          | true =>
            obtain rfl : cfg = true := there rfl rfl rfl
            cases cfgCopy with
            | false =>
              exact ⟨.ok, by simp [getCoreCfg, mtlkClpbPush, ok], fun lost => by cases lost⟩
            | true => exact absurd rfl some

/-- Nothing is configured. -/
def Settings.zero : Settings :=
  ⟨0, 0, 0, false, 0, 0, [], fun _ => (0, 0, 0), [], false, 0, 0, 0, 0, 0, 0⟩

/-- There is no memory for the structure, and the answer has an entry without it. -/
theorem not_readBack : ¬ ∀ (mem mem' : Nat → UInt8) (changes : List Change) (s : Settings)
    (alloc : Allocs), ReadBack s (changes.foldl Stored.step (.init mem mem'))
      (lastNickname changes) (lastEssid changes) alloc := by
  intro all
  obtain none | ⟨res, code, -⟩ := (all (fun _ => 0) (fun _ => 0) [] .zero
    ⟨false, true, true, true, true⟩).failed (by simp [Allocs.All])
  · simp [getCoreCfg, mtlkClpbPush] at none
  · simp [getCoreCfg, mtlkClpbPush] at code

end Wave300.Config
