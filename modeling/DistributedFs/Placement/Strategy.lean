import DistributedFs.Fsm.Snapshot
import DistributedFs.Go.Sort

namespace DistributedFs.Placement

open Go Fsm

/-- The interface `PlacementStrategy`. The selections return the nodes beside an error,
    as the Go methods do. -/
structure PlacementStrategy where
  selectNodes (nodes : List NodeEntry) (chunkID : String) (minSpace count : Int)
    (exclude : List NodeEntry) : List NodeEntry × Option GoError
  selectNodeReverse (nodes : List NodeEntry) (chunkID : String) (minSpace count : Int)
    (exclude : List NodeEntry) : List NodeEntry × Option GoError
  selectPrimary (nodes : List NodeEntry) : NodeEntry

def filterNodes (nodes exclude : List NodeEntry) : List NodeEntry :=
  nodes.filter fun node => node.nodeID ∉ exclude.map NodeEntry.nodeID

def filterByMinSpace (nodes : List NodeEntry) (minSpace : Int) : List NodeEntry :=
  if minSpace ≤ 0 then nodes
  else nodes.filter fun node => minSpace ≤ node.freeSpace.toNat

def candidates (nodes : List NodeEntry) (minSpace : Int) (exclude : List NodeEntry) : List NodeEntry :=
  filterByMinSpace (filterNodes nodes exclude) minSpace

/-- The body that the four selections share. No caller passes a negative count, for which
    the slice expression of the source would panic. -/
def selectSorted (sorter : Sorter NodeEntry) (less : NodeEntry → NodeEntry → Bool)
    (nodes : List NodeEntry) (minSpace count : Int) (exclude : List NodeEntry) :
    List NodeEntry × Option GoError :=
  let filtered := sorter.sort less (candidates nodes minSpace exclude)
  if filtered.length < count then
    (filtered, some (.new ("there are not enough nodes: required_nodes= " ++ toString count ++
      ", have= " ++ toString filtered.length)))
  else (filtered.take count.toNat, none)

def sortByMostFreeSpace (a b : NodeEntry) : Bool :=
  if a.freeSpace = b.freeSpace then a.chunkCount < b.chunkCount else a.freeSpace > b.freeSpace

def fewerChunks (a b : NodeEntry) : Bool := a.chunkCount < b.chunkCount

def mostFreeSpaceStrategy (sorter : Sorter NodeEntry) : PlacementStrategy where
  selectNodes nodes _ minSpace count exclude :=
    selectSorted sorter sortByMostFreeSpace nodes minSpace count exclude
  selectNodeReverse nodes _ minSpace count exclude :=
    selectSorted sorter (fun a b => sortByMostFreeSpace b a) nodes minSpace count exclude
  selectPrimary nodes :=
    if nodes.length = 0 then default else (sorter.sort sortByMostFreeSpace nodes).headD default

def leastLoadedStrategy (sorter : Sorter NodeEntry) : PlacementStrategy where
  selectNodes nodes _ minSpace count exclude :=
    selectSorted sorter fewerChunks nodes minSpace count exclude
  selectNodeReverse nodes _ minSpace count exclude :=
    selectSorted sorter (fun a b => fewerChunks b a) nodes minSpace count exclude
  selectPrimary
    | [] => default
    | best :: rest => firstLeast fewerChunks best rest

/-- What the repair scheduler may expect of a strategy: a selection succeeds if there are
    enough candidates and then names that many different ones, and the primary is one of
    the nodes given. -/
structure PlacementStrategy.Sound (strategy : PlacementStrategy) : Prop where
  enough : ∀ nodes chunkID minSpace (count : Int) exclude,
    count ≤ (candidates nodes minSpace exclude).length →
      (strategy.selectNodes nodes chunkID minSpace count exclude).2 = none
  chosen : ∀ nodes chunkID minSpace count exclude picked,
    strategy.selectNodes nodes chunkID minSpace count exclude = (picked, none) →
      picked.Subperm (candidates nodes minSpace exclude) ∧ picked.length = count.toNat
  primary : ∀ nodes, nodes ≠ [] → strategy.selectPrimary nodes ∈ nodes

theorem selectSorted_enough (sorter : Sorter NodeEntry) (less : NodeEntry → NodeEntry → Bool)
    {nodes : List NodeEntry} {minSpace count : Int} {exclude : List NodeEntry}
    (enough : count ≤ (candidates nodes minSpace exclude).length) :
    (selectSorted sorter less nodes minSpace count exclude).2 = none := by
  have length := (sorter.perm less (candidates nodes minSpace exclude)).length_eq
  simp only [selectSorted, length]
  rw [if_neg (by omega)]

theorem selectSorted_chosen (sorter : Sorter NodeEntry) (less : NodeEntry → NodeEntry → Bool)
    {nodes : List NodeEntry} {minSpace count : Int} {exclude picked : List NodeEntry}
    (selected : selectSorted sorter less nodes minSpace count exclude = (picked, none)) :
    picked.Subperm (candidates nodes minSpace exclude) ∧ picked.length = count.toNat := by
  have sorted := sorter.perm less (candidates nodes minSpace exclude)
  simp only [selectSorted] at selected
  split at selected
  · cases selected
  · rename_i enough
    cases selected
    constructor
    · exact (List.take_sublist _ _).subperm.trans sorted.subperm
    · rw [List.length_take]
      omega

theorem mostFreeSpaceStrategy_sound (sorter : Sorter NodeEntry) :
    (mostFreeSpaceStrategy sorter).Sound where
  enough _ _ _ _ _ := selectSorted_enough sorter _
  chosen _ _ _ _ _ _ := selectSorted_chosen sorter _
  primary nodes some := by
    have sorted := sorter.perm sortByMostFreeSpace nodes
    have filled : nodes.length ≠ 0 := by simpa using some
    simp only [mostFreeSpaceStrategy, filled, if_false]
    cases order : sorter.sort sortByMostFreeSpace nodes with
    | nil =>
      rw [order] at sorted
      exact absurd sorted.nil_eq.symm some
    | cons first rest =>
      rw [order] at sorted
      exact sorted.subset List.mem_cons_self

theorem leastLoadedStrategy_sound (sorter : Sorter NodeEntry) : (leastLoadedStrategy sorter).Sound where
  enough _ _ _ _ _ := selectSorted_enough sorter _
  chosen _ _ _ _ _ _ := selectSorted_chosen sorter _
  primary nodes some := by
    cases nodes with
    | nil => exact absurd rfl some
    | cons best rest => exact firstLeast_mem fewerChunks best rest

theorem sortByMostFreeSpace_iff (a b : NodeEntry) :
    sortByMostFreeSpace a b = true ↔ b.freeSpace.toNat < a.freeSpace.toNat ∨
      a.freeSpace.toNat = b.freeSpace.toNat ∧ a.chunkCount.toNat < b.chunkCount.toNat := by
  unfold sortByMostFreeSpace
  split
  · rename_i same
    simp [same, UInt64.lt_iff_toNat_lt]
  · rename_i differ
    have apart : a.freeSpace.toNat ≠ b.freeSpace.toNat := fun same => differ (UInt64.toNat_inj.mp same)
    simp [apart, UInt64.lt_iff_toNat_lt]

theorem sortByMostFreeSpace_order : StrictWeakOrder sortByMostFreeSpace where
  asymm a b above := by
    rw [sortByMostFreeSpace_iff] at above
    rw [← Bool.not_eq_true, sortByMostFreeSpace_iff]
    omega
  negTrans a b c := by
    simp only [← Bool.not_eq_true, sortByMostFreeSpace_iff]
    omega

end DistributedFs.Placement
