import Mathlib.Data.Nat.Notation
import Mathlib.Logic.Function.Basic

/-!
# The tree of statistics

`mtlk_wss.c`. A node holds contexts, one for each statistic it was created with, and an array of
pointers to entries; an entry holds the contexts that a counter handle runs over. The `n`-th
call of `mtlk_osal_mem_alloc` succeeds if `grant n`, and then returns the address `n`.

An entry and an array of entries do not change after the call that makes them, so they are
kept by value, with their addresses; `live` tells which blocks are allocated. A pointer to a
context is the address of its node and the index in the array behind the node.
-/

namespace Wave300.Wss

/-- `mtlk_wss_stats_context_t` -/
structure Context where
  statId : ℕ
  value : BitVec 32
  deriving DecidableEq, Repr

/-- A pointer to a context. -/
structure Ptr where
  node : ℕ
  idx : ℕ
  deriving DecidableEq, Repr

/-- `mtlk_wss_stats_entry_t`, with the contexts of its `mtlk_wss_cntr_handle_t`. -/
structure Entry where
  addr : ℕ
  allocator : ℕ
  statId : ℕ
  contexts : List Ptr
  deriving DecidableEq, Repr

/-- The array `entries`, of `nof_entries` cells. -/
structure Entries where
  addr : ℕ
  cells : List (Option Entry)
  deriving DecidableEq, Repr

/-- `mtlk_wss_t`, with the contexts behind it. -/
structure Node where
  parent : Option ℕ
  entries : Option Entries
  contexts : List Context
  deriving DecidableEq, Repr

structure Mem where
  node : ℕ → Option Node
  live : ℕ → Bool
  next : ℕ

def Mem.init : Mem := ⟨fun _ => none, fun _ => false, 0⟩

/-- `mtlk_osal_mem_alloc` -/
def Mem.alloc (grant : ℕ → Bool) (m : Mem) : Mem × Option ℕ :=
  if grant m.next then
    ({ m with live := Function.update m.live m.next true, next := m.next + 1 }, some m.next)
  else ({ m with next := m.next + 1 }, none)

/-- `mtlk_osal_mem_free` -/
def Mem.free (m : Mem) (a : ℕ) : Mem := { m with live := Function.update m.live a false }

/-- The cells of `entries`; a node without an array has `nof_entries` zero. -/
def cellsOf (entries : Option Entries) : List (Option Entry) :=
  match entries with
  | some e => e.cells
  | none => []

/-- `_mtlk_wss_find_entry` -/
def findEntry (cells : List (Option Entry)) (statId : ℕ) : Option ℕ :=
  cells.findIdx? fun c => c.any (·.statId == statId)

/-- `_mtlk_wss_get_merged_nof_entries`, from the cells of the parent. -/
def getMergedNofEntries (parent : List (Option Entry)) (ids : List ℕ) : ℕ :=
  ids.length + parent.length - ids.countP fun id => (findEntry parent id).isSome

/-- `_mtlk_wss_realloc_stats_entry_add_context`, for the context `idx` of the node `a`. -/
def reallocStatsEntryAddContext (grant : ℕ → Bool) (m : Mem) (a : ℕ)
    (cells : List (Option Entry)) (entryIdx : Option ℕ) (idx statId : ℕ) :
    Mem × Option (List (Option Entry)) :=
  let at' := match entryIdx with
    | some i => i
    -- find an empty cell
    | none => cells.findIdx Option.isNone
  let copied := match entryIdx with
    | some i => match cells[i]? with
      | some (some e) => e.contexts
      | _ => []
    | none => []
  match m.alloc grant with
  | (m, none) => (m, none)
  | (m, some addr) => (m, some (cells.set at' (some ⟨addr, a, statId, copied ++ [⟨a, idx⟩]⟩)))

/-- The loop of `_mtlk_wss_adopt_contexts`, with the contexts that are left and their indices. -/
def adoptLoop (grant : ℕ → Bool) (a : ℕ) (parent : List (Option Entry)) :
    List (ℕ × ℕ) → Mem → List (Option Entry) → Mem × List (Option Entry) × Bool
  | [], m, cells => (m, cells, true)
  | (statId, idx) :: rest, m, cells =>
    match reallocStatsEntryAddContext grant m a cells (findEntry parent statId) idx statId with
    | (m, none) => (m, cells, false)
    | (m, some cells) => adoptLoop grant a parent rest m cells

/-- The frees of `_mtlk_wss_rollback_contexts`. -/
def rollbackContexts (m : Mem) (a : ℕ) (parent entries : Option Entries) : Mem :=
  match entries with
  | none => m
  | some e =>
    if parent.map Entries.addr ≠ some e.addr then
      let own := e.cells.reduceOption.filter (·.allocator == a)
      (own.foldl (fun m e => m.free e.addr) m).free e.addr
    else m

/-- `_mtlk_wss_adopt_contexts`: the array of the node, unless an allocation failed. -/
def adoptContexts (grant : ℕ → Bool) (m : Mem) (a : ℕ) (parent : Option Entries)
    (ids : List ℕ) : Mem × Option Entries :=
  let cells := cellsOf parent
  let newNofEntries := getMergedNofEntries cells ids
  match m.alloc grant with
  | (m, none) => (rollbackContexts m a parent parent, none)
  | (m, some addr) =>
    let new := cells ++ List.replicate (newNofEntries - cells.length) none
    match adoptLoop grant a cells ids.zipIdx m new with
    | (m, new, true) => (m, some ⟨addr, new⟩)
    | (m, new, false) => (rollbackContexts m a parent (some ⟨addr, new⟩), none)

/-- `mtlk_wss_create`, under a node of the tree or as a root. -/
def Mem.create (grant : ℕ → Bool) (m : Mem) (parent : Option ℕ) (ids : List ℕ) :
    Mem × Option ℕ :=
  let inherited := (parent.bind m.node).bind Node.entries
  match m.alloc grant with
  | (m, none) => (m, none)
  | (m, some a) =>
    let contexts := ids.map (⟨·, 0⟩)
    if ids = [] then
      ({ m with node := Function.update m.node a (some ⟨parent, inherited, contexts⟩) }, some a)
    else match adoptContexts grant m a inherited ids with
      | (m, some entries) =>
        ({ m with node := Function.update m.node a (some ⟨parent, some entries, contexts⟩) },
          some a)
      | (m, none) => (m.free a, none)

/-- `mtlk_wss_delete` -/
def Mem.delete (m : Mem) (a : ℕ) : Mem :=
  match m.node a with
  | some w =>
    let m := rollbackContexts m a ((w.parent.bind m.node).bind Node.entries) w.entries
    { m.free a with node := Function.update m.node a none }
  | none => m

/-- `mtlk_wss_cntr_open` -/
def Mem.cntrOpen (m : Mem) (a statId : ℕ) : Option (List Ptr) :=
  let cells := cellsOf ((m.node a).bind Node.entries)
  (findEntry cells statId).bind fun i => (cells[i]?.join).map Entry.contexts

/-- The loop of `mtlk_wss_cntrs_open`: the handles up to the first that cannot be opened. -/
def Mem.openLoop (m : Mem) (a : ℕ) : List ℕ → Bool × List (Option (List Ptr))
  | [] => (true, [])
  | id :: ids =>
    match m.cntrOpen a id with
    | some h => let (res, hs) := m.openLoop a ids; (res, some h :: hs)
    | none => (false, none :: ids.map fun _ => none)

/-- `mtlk_wss_cntrs_open`: the result, the handles, and the memory, which `mtlk_wss_cntr_close`
leaves alone. On failure the handles before the first `NULL` are closed and set to `NULL`. -/
def Mem.cntrsOpen (m : Mem) (a : ℕ) (ids : List ℕ) : Mem × Bool × List (Option (List Ptr)) :=
  match m.openLoop a ids with
  | (true, hs) => (m, true, hs)
  | (false, hs) => (m, false, (hs.takeWhile Option.isSome).map (fun _ => none) ++
      hs.dropWhile Option.isSome)

/-- `mtlk_osal_atomic_add` on the value of a context. -/
def Mem.addTo (n : BitVec 32) (m : Mem) (p : Ptr) : Mem :=
  { m with
    node := Function.update m.node p.node ((m.node p.node).map fun w =>
      { w with contexts := w.contexts.modify p.idx fun c => { c with value := c.value + n } }) }

/-- `mtlk_wss_cntr_add`; `mtlk_wss_cntr_inc` adds one. -/
def Mem.cntrAdd (m : Mem) (h : List Ptr) (n : BitVec 32) : Mem := h.foldl (Mem.addTo n) m

/-- The calls made on the tree. -/
inductive Op where
  | create (parent : Option ℕ) (ids : List ℕ)
  | delete (a : ℕ)
  | add (a statId : ℕ) (n : BitVec 32)
  deriving DecidableEq, Repr

def step (grant : ℕ → Bool) (m : Mem) : Op → Mem
  | .create parent ids => (m.create grant parent ids).1
  | .delete a => m.delete a
  | .add a statId n =>
    match m.cntrOpen a statId with
    | some h => m.cntrAdd h n
    | none => m

/-- Nodes are created under nodes that are there, and deleted when they have no children. -/
def Mem.Calls (m : Mem) : Op → Prop
  | .create parent _ => ∀ p, parent = some p → (m.node p).isSome
  | .delete a => (m.node a).isSome ∧ ∀ b w, m.node b = some w → w.parent ≠ some a
  | .add a _ _ => (m.node a).isSome

end Wave300.Wss
