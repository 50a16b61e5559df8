import Mathlib.Data.Fin.VecNotation
import Mathlib.Order.WellFounded
import Wave300.Config.Acl
import Wave300.Sq.Queue

/-!
# The configuration of ADDBA

`core.c`: `_mtlk_core_check_and_set_addba_cfg_field`, which stores the fields of a request one after
another, and looks at one of them before. How many packets the firmware aggregates in each access
category is a parameter.
-/

namespace Wave300.Config

open Lib Sq

/-- `MTLK_ADDBA_NOF_TIDs` -/
def mtlkAddbaNofTids : Nat := 8

/-- `mtlk_addba_tid_cfg_t` -/
structure TidCfg where
  useAggr : Int
  acceptAggr : Int
  maxNofPackets : UInt16
  maxNofBytes : UInt32
  timeoutInterval : UInt32
  minPacketSizeInAggr : UInt32
  addbaTimeout : UInt16
  aggrWinSize : UInt8
  deriving DecidableEq

/-- `mtlk_addba_tid_cfg_entity_t`, of which an item is there if it is filled. -/
structure TidCfgEntity where
  useAggr : Option Int
  acceptAggr : Option Int
  maxNofPackets : Option UInt16
  maxNofBytes : Option UInt32
  timeoutInterval : Option UInt32
  minPacketSizeInAggr : Option UInt32
  addbaTimeout : Option UInt16
  aggrWinSize : Option UInt8

/-- `mtlk_addba_cfg_t` -/
abbrev AddbaCfg := Fin mtlkAddbaNofTids → TidCfg

/-- `mtlk_addba_cfg_entity_t` -/
abbrev AddbaCfgEntity := Fin mtlkAddbaNofTids → TidCfgEntity

/-- The maps of `mtlk_qos_set_map`. -/
inductive WmmMap where
  | use80211Map
  | use8021QMap
  | use80211MapInvertedViBe
  | use8021QMapInvertedViBe

/-- `wmm_aci_class` -/
def wmmAciClass : WmmMap → Fin mtlkAddbaNofTids → Ac
  | .use80211Map | .use80211MapInvertedViBe => ![.be, .bk, .bk, .be, .vi, .vi, .vo, .vo]
  | .use8021QMap | .use8021QMapInvertedViBe => ![.be, .bk, .vi, .vi, .vi, .vo, .vo, .vo]

section Request
variable (map : WmmMap) (supported : Ac → UInt8)

/-- `_mtlk_core_verify_assign_aggr_max_num_of_packets` -/
def verifyAssignAggrMaxNumOfPackets (inMaxNofPackets dst : UInt16) (tid : Fin mtlkAddbaNofTids) :
    UInt16 × Err :=
  if (supported (wmmAciClass map tid)).toNat < inMaxNofPackets.toNat then (dst, .params)
  else (inMaxNofPackets, .ok)

/-- What is stored before the number of packets is looked at. -/
def TidCfg.begin (dst : TidCfg) (src : TidCfgEntity) : TidCfg :=
  { dst with
    useAggr := src.useAggr.getD dst.useAggr
    acceptAggr := src.acceptAggr.getD dst.acceptAggr }

/-- What is stored after it. -/
def TidCfg.finish (dst : TidCfg) (src : TidCfgEntity) : TidCfg :=
  { dst with
    maxNofBytes := src.maxNofBytes.getD dst.maxNofBytes
    timeoutInterval := src.timeoutInterval.getD dst.timeoutInterval
    minPacketSizeInAggr := src.minPacketSizeInAggr.getD dst.minPacketSizeInAggr
    addbaTimeout := src.addbaTimeout.getD dst.addbaTimeout
    aggrWinSize := src.aggrWinSize.getD dst.aggrWinSize }

/-- One round of the loop. -/
def setTid (src : TidCfgEntity) (dst : TidCfg) (tid : Fin mtlkAddbaNofTids) : TidCfg × Err :=
  let dst := dst.begin src
  match src.maxNofPackets with
  | none => (dst.finish src, .ok)
  | some n =>
    let (maxNofPackets, res) :=
      verifyAssignAggrMaxNumOfPackets map supported n dst.maxNofPackets tid
    if res ≠ .ok then ({ dst with maxNofPackets }, res)
    else ({ dst with maxNofPackets }.finish src, .ok)

def setTids (src : AddbaCfgEntity) : List (Fin mtlkAddbaNofTids) → AddbaCfg → AddbaCfg × Err
  | [], dst => (dst, .ok)
  | tid :: tids, dst =>
    let (cfg, res) := setTid map supported (src tid) (dst tid) tid
    let dst := Function.update dst tid cfg
    if res ≠ .ok then (dst, res) else setTids src tids dst

/-- `_mtlk_core_check_and_set_addba_cfg_field` -/
def checkAndSetAddbaCfgField (src : AddbaCfgEntity) (dst : AddbaCfg) : AddbaCfg × Err :=
  setTids map supported src (List.finRange mtlkAddbaNofTids) dst

/-- The fields of a request in place of those that are stored. -/
def TidCfg.filled (dst : TidCfg) (src : TidCfgEntity) : TidCfg where
  useAggr := src.useAggr.getD dst.useAggr
  acceptAggr := src.acceptAggr.getD dst.acceptAggr
  maxNofPackets := src.maxNofPackets.getD dst.maxNofPackets
  maxNofBytes := src.maxNofBytes.getD dst.maxNofBytes
  timeoutInterval := src.timeoutInterval.getD dst.timeoutInterval
  minPacketSizeInAggr := src.minPacketSizeInAggr.getD dst.minPacketSizeInAggr
  addbaTimeout := src.addbaTimeout.getD dst.addbaTimeout
  aggrWinSize := src.aggrWinSize.getD dst.aggrWinSize

/-- A request is stored as a whole or not at all. -/
structure AllOrNothing (src : AddbaCfgEntity) (dst : AddbaCfg) : Prop where
  all : (checkAndSetAddbaCfgField map supported src dst).2 = .ok →
    (checkAndSetAddbaCfgField map supported src dst).1 = fun tid => (dst tid).filled (src tid)
  nothing : (checkAndSetAddbaCfgField map supported src dst).2 ≠ .ok →
    (checkAndSetAddbaCfgField map supported src dst).1 = dst

/-- More packets are asked for than there may be. -/
def Exceeds (src : AddbaCfgEntity) (tid : Fin mtlkAddbaNofTids) : Prop :=
  ∃ n ∈ (src tid).maxNofPackets, (supported (wmmAciClass map tid)).toNat < n.toNat

/-- All that comes before the first number that is too large is stored already. -/
def StoredBefore (src : AddbaCfgEntity) (dst : AddbaCfg) : Prop :=
  ∀ tid, Exceeds map supported src tid → (∀ before < tid, ¬ Exceeds map supported src before) →
    (∀ before < tid, (dst before).filled (src before) = dst before) ∧
      (dst tid).begin (src tid) = dst tid

end Request

variable {map : WmmMap} {supported : Ac → UInt8} {src : AddbaCfgEntity} {dst : AddbaCfg}
  {tid : Fin mtlkAddbaNofTids}

theorem setTid_fits (cfg : TidCfg) (fits : ¬ Exceeds map supported src tid) :
    setTid map supported (src tid) cfg tid = (cfg.filled (src tid), .ok) := by
  unfold setTid
  cases asked : (src tid).maxNofPackets with
  | none => simp [TidCfg.begin, TidCfg.finish, TidCfg.filled, asked]
  | some n =>
    have small : ¬ (supported (wmmAciClass map tid)).toNat < n.toNat :=
      fun large => fits ⟨n, asked, large⟩
    simp [verifyAssignAggrMaxNumOfPackets, small, TidCfg.begin, TidCfg.finish, TidCfg.filled, asked]

theorem setTid_exceeds (cfg : TidCfg) (exceeds : Exceeds map supported src tid) :
    setTid map supported (src tid) cfg tid = (cfg.begin (src tid), .params) := by
  obtain ⟨n, asked, large⟩ := exceeds
  simp [setTid, Option.mem_def.1 asked, verifyAssignAggrMaxNumOfPackets, large, TidCfg.begin]

theorem filled_filled (cfg : TidCfg) (entity : TidCfgEntity) :
    (cfg.filled entity).filled entity = cfg.filled entity := by
  have twice {α : Type} (o : Option α) (a : α) : o.getD (o.getD a) = o.getD a := by
    cases o <;> rfl
  simp only [TidCfg.filled, twice]

/-- The loop up to the first number that is too large. -/
theorem setTids_append {first : List (Fin mtlkAddbaNofTids)}
    (fit : ∀ tid ∈ first, ¬ Exceeds map supported src tid) (rest : List (Fin mtlkAddbaNofTids))
    (dst : AddbaCfg) : setTids map supported src (first ++ rest) dst =
      setTids map supported src rest fun tid =>
        if tid ∈ first then (dst tid).filled (src tid) else dst tid := by
  induction first generalizing dst with
  | nil => simp
  | cons tid first ih =>
    obtain ⟨fits, fit⟩ := List.forall_mem_cons.1 fit
    rw [List.cons_append, setTids, setTid_fits _ fits]
    simp only [ne_eq, not_true_eq_false, if_false, ih fit]
    congr 1
    funext other
    by_cases same : other = tid
    · subst same
      simp [filled_filled]
    · simp [same]

theorem mem_first {first last : List (Fin mtlkAddbaNofTids)}
    (split : List.finRange mtlkAddbaNofTids = first ++ tid :: last) (other : Fin mtlkAddbaNofTids) :
    other ∈ first ↔ other < tid := by
  have sorted := List.pairwise_lt_finRange mtlkAddbaNofTids
  rw [split, List.pairwise_append, List.pairwise_cons] at sorted
  obtain ⟨-, ⟨after, -⟩, before⟩ := sorted
  constructor
  · exact fun mem => before other mem tid List.mem_cons_self
  · intro less
    have mem := List.mem_finRange other
    rw [split, List.mem_append, List.mem_cons] at mem
    obtain here | rfl | there := mem
    · exact here
    · exact absurd less (lt_irrefl _)
    · exact absurd (after other there) (not_lt_of_gt less)

theorem set_fits (fit : ∀ tid, ¬ Exceeds map supported src tid) (dst : AddbaCfg) :
    checkAndSetAddbaCfgField map supported src dst =
      (fun tid => (dst tid).filled (src tid), .ok) := by
  have whole := setTids_append
    (show ∀ tid ∈ List.finRange mtlkAddbaNofTids, _ from fun tid _ => fit tid) [] dst
  rw [List.append_nil] at whole
  rw [checkAndSetAddbaCfgField, whole]
  simp [setTids]

/-- What is left where a number is too large. -/
theorem set_exceeds (exceeds : Exceeds map supported src tid)
    (fit : ∀ before < tid, ¬ Exceeds map supported src before) (dst : AddbaCfg) :
    checkAndSetAddbaCfgField map supported src dst =
      (Function.update (fun before => if before < tid then (dst before).filled (src before)
        else dst before) tid ((dst tid).begin (src tid)), .params) := by
  obtain ⟨first, last, split⟩ := List.append_of_mem (List.mem_finRange tid)
  have mem := mem_first split
  rw [checkAndSetAddbaCfgField, split,
    setTids_append fun before there => fit before ((mem before).1 there)]
  simp only [mem]
  rw [setTids]
  simp only [lt_irrefl, if_false, setTid_exceeds _ exceeds]
  rfl

/-- A request is stored as a whole or not at all exactly if what comes before a number that is too
large is stored already. -/
theorem allOrNothing_iff (map : WmmMap) (supported : Ac → UInt8) (src : AddbaCfgEntity)
    (dst : AddbaCfg) : AllOrNothing map supported src dst ↔ StoredBefore map supported src dst := by
  by_cases fit : ∀ tid, ¬ Exceeds map supported src tid
  · have done := set_fits fit dst
    refine iff_of_true ⟨fun _ => congrArg Prod.fst done, fun failed => ?_⟩
      fun tid exceeds => absurd exceeds (fit tid)
    exact absurd (congrArg Prod.snd done) failed
  · push Not at fit
    obtain ⟨some, there⟩ := fit
    obtain ⟨tid, exceeds, least⟩ :=
      (wellFounded_lt (α := Fin mtlkAddbaNofTids)).has_min {tid | Exceeds map supported src tid}
        ⟨some, there⟩
    have before : ∀ before < tid, ¬ Exceeds map supported src before :=
      fun before less there => least before there less
    have left := set_exceeds exceeds before dst
    constructor
    · intro right tid' exceeds' before'
      obtain rfl : tid' = tid := le_antisymm (le_of_not_gt fun less => before' tid less exceeds)
        (le_of_not_gt fun less => before tid' less exceeds')
      have same := right.nothing (by simp [left])
      rw [left] at same
      refine ⟨fun earlier less => ?_, ?_⟩
      · have there := congrFun same earlier
        simpa only [Function.update_of_ne (ne_of_lt less), if_pos less] using there
      · have here := congrFun same tid'
        simpa only [Function.update_self] using here
    · intro stored
      obtain ⟨earlier, begun⟩ := stored tid exceeds before
      refine ⟨fun ok => by simp [left] at ok, fun _ => ?_⟩
      rw [left]
      funext other
      by_cases same : other = tid
      · simpa only [same, Function.update_self] using begun
      · simp only [Function.update_of_ne same]
        split
        next less => exact earlier other less
        next => rfl

/-- The first traffic identifier is switched off, and the second asks for too many packets. -/
def lateRequest (tid : Fin mtlkAddbaNofTids) : TidCfgEntity :=
  if tid.val = 0 then ⟨some 0, none, none, none, none, none, none, none⟩
  else if tid.val = 1 then ⟨none, none, some 300, none, none, none, none, none⟩
  else ⟨none, none, none, none, none, none, none, none⟩

/-- The first is stored, and an error is returned for the second. -/
theorem not_allOrNothing : ¬ ∀ (map : WmmMap) (supported : Ac → UInt8) (src : AddbaCfgEntity)
    (dst : AddbaCfg), AllOrNothing map supported src dst := by
  intro all
  have same := (all .use80211Map (fun _ => 20) lateRequest
    fun _ => ⟨1, 1, 12, 19200, 1, 10, 0xFFFF, 64⟩).nothing (by decide)
  have first := congrArg TidCfg.useAggr (congrFun same ⟨0, by decide⟩)
  revert first
  decide

end Wave300.Config
