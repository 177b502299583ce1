import DistributedFs.Go.SliceLoops
import DistributedFs.Placement.Strategy

namespace DistributedFs.Placement

open Go Fsm

structure SliceStrategy where
  selectNodes (h : Heap NodeEntry) (nodes : Slice) (chunkID : String) (minSpace count : Int) (exclude : Slice) :
    Heap NodeEntry × Slice × Option GoError
  selectNodeReverse (h : Heap NodeEntry) (nodes : Slice) (chunkID : String) (minSpace count : Int)
    (exclude : Slice) : Heap NodeEntry × Slice × Option GoError
  selectPrimary (h : Heap NodeEntry) (nodes : Slice) : Heap NodeEntry × NodeEntry

namespace Slices

variable (policy : GrowthPolicy) (sorter : Sorter NodeEntry)

def filterNodes (h : Heap NodeEntry) (nodes exclude : Slice) : Heap NodeEntry × Slice :=
  Heap.collect policy (fun v => v.nodeID ∉ (h.read exclude).map NodeEntry.nodeID) nodes (h, default)

def filterByMinSpace (h : Heap NodeEntry) (nodes : Slice) (minSpace : Int) : Heap NodeEntry × Slice :=
  if minSpace ≤ 0 then (h, nodes)
  else Heap.collect policy (fun n => minSpace ≤ n.freeSpace.toNat) nodes (h.make nodes.len)

def selectSorted (less : NodeEntry → NodeEntry → Bool) (h : Heap NodeEntry) (nodes : Slice)
    (minSpace count : Int) (exclude : Slice) : Heap NodeEntry × Slice × Option GoError :=
  let filtered := filterNodes policy h nodes exclude
  let candidates := filterByMinSpace policy filtered.1 filtered.2 minSpace
  let sorted := candidates.1.sortInPlace sorter less candidates.2
  if candidates.2.len < count then
    (sorted, candidates.2, some (.new ("there are not enough nodes: required_nodes= " ++ toString count ++
      ", have= " ++ toString candidates.2.len)))
  else (sorted, candidates.2.take count.toNat, none)

def mostFreeSpaceStrategy : SliceStrategy where
  selectNodes h nodes _ minSpace count exclude :=
    selectSorted policy sorter sortByMostFreeSpace h nodes minSpace count exclude
  selectNodeReverse h nodes _ minSpace count exclude :=
    selectSorted policy sorter (fun a b => sortByMostFreeSpace b a) h nodes minSpace count exclude
  selectPrimary h nodes :=
    if nodes.len = 0 then (h, default)
    else
      let copy := h.append policy default (h.read nodes)
      let sorted := copy.1.sortInPlace sorter sortByMostFreeSpace copy.2
      (sorted, (sorted.read copy.2).headD default)

def leastLoadedStrategy : SliceStrategy where
  selectNodes h nodes _ minSpace count exclude :=
    selectSorted policy sorter fewerChunks h nodes minSpace count exclude
  selectNodeReverse h nodes _ minSpace count exclude :=
    selectSorted policy sorter (fun a b => fewerChunks b a) h nodes minSpace count exclude
  selectPrimary h nodes := (h, (Placement.leastLoadedStrategy sorter).selectPrimary (h.read nodes))

variable {h : Heap NodeEntry} {nodes : Slice}

theorem filterNodes_spec (held : h.Holds nodes) (exclude : Slice) :
    Heap.OwnWrites h (filterNodes policy h nodes exclude).1 (filterNodes policy h nodes exclude).2 ∧
    (filterNodes policy h nodes exclude).1.read (filterNodes policy h nodes exclude).2 =
      Placement.filterNodes (h.read nodes) (h.read exclude) :=
  Heap.collect_spec policy _ held (Heap.OwnWrites.nil h) (Heap.read_of_cap_eq_zero h rfl)

theorem filterByMinSpace_spec {h' : Heap NodeEntry} {filtered : Slice} (own : Heap.OwnWrites h h' filtered)
    (minSpace : Int) :
    Heap.OwnWrites h (filterByMinSpace policy h' filtered minSpace).1
      (filterByMinSpace policy h' filtered minSpace).2 ∧
    (filterByMinSpace policy h' filtered minSpace).1.read (filterByMinSpace policy h' filtered minSpace).2 =
      Placement.filterByMinSpace (h'.read filtered) minSpace := by
  unfold filterByMinSpace Placement.filterByMinSpace
  split
  · exact ⟨own, rfl⟩
  · have loop := Heap.collect_spec policy (fun n : NodeEntry => decide (minSpace ≤ n.freeSpace.toNat)) own.held
      (Heap.OwnWrites.make h' filtered.len) (Heap.read_alloc h' [] _ _)
    exact ⟨own.trans loop.1, loop.2⟩

/-- A selection over slices writes to no array of its caller, and what it returns reads as the
    selection over lists. -/
theorem selectSorted_refines (less : NodeEntry → NodeEntry → Bool) (held : h.Holds nodes)
    (minSpace count : Int) (exclude : Slice) :
    (∀ t, h.Holds t →
      (selectSorted policy sorter less h nodes minSpace count exclude).1.read t = h.read t) ∧
    ((selectSorted policy sorter less h nodes minSpace count exclude).1.read
        (selectSorted policy sorter less h nodes minSpace count exclude).2.1,
      (selectSorted policy sorter less h nodes minSpace count exclude).2.2) =
      Placement.selectSorted sorter less (h.read nodes) minSpace count (h.read exclude) := by
  obtain ⟨first, filtered⟩ := filterNodes_spec policy held exclude
  obtain ⟨second, read⟩ := filterByMinSpace_spec policy first minSpace
  rw [filtered] at read
  simp only [selectSorted]
  generalize filterByMinSpace policy _ _ minSpace = found at second read ⊢
  have third := second.sortInPlace sorter less
  have sorted := Heap.read_sortInPlace sorter less found.1 found.2
  rw [read] at sorted
  have size : (sorter.sort less (Placement.filterByMinSpace
      (Placement.filterNodes (h.read nodes) (h.read exclude)) minSpace)).length = found.2.len := by
    rw [← sorted, Heap.length_read]
  by_cases few : (found.2.len : Int) < count
  · simp only [few, if_true, Placement.selectSorted, Placement.candidates, size, sorted]
    exact ⟨third.older, trivial⟩
  · simp only [few, if_false, Placement.selectSorted, Placement.candidates, size, Heap.read_take, sorted]
    exact ⟨third.older, trivial⟩

end Slices

def Eligible (exclude : List NodeEntry) (minSpace : Int) (node : NodeEntry) : Prop :=
  node.nodeID ∉ exclude.map NodeEntry.nodeID ∧ (0 < minSpace → minSpace ≤ node.freeSpace.toNat)

instance (exclude : List NodeEntry) (minSpace : Int) (node : NodeEntry) :
    Decidable (Eligible exclude minSpace node) :=
  inferInstanceAs (Decidable (_ ∧ _))

def eligible (nodes exclude : List NodeEntry) (minSpace : Int) : List NodeEntry :=
  nodes.filter fun node => Eligible exclude minSpace node

def MoreFree (a b : NodeEntry) : Prop :=
  b.freeSpace.toNat < a.freeSpace.toNat ∨
    a.freeSpace.toNat = b.freeSpace.toNat ∧ a.chunkCount.toNat < b.chunkCount.toNat

def LessLoaded (a b : NodeEntry) : Prop := a.chunkCount.toNat < b.chunkCount.toNat

structure Selection (precedes : NodeEntry → NodeEntry → Prop) (nodes exclude : List NodeEntry)
    (minSpace count : Int) (picked : List NodeEntry) (err : Option GoError) : Prop where
  succeeds : err = none ↔ count ≤ (eligible nodes exclude minSpace).length
  ordered : picked.Pairwise fun a b => ¬ precedes b a
  distinct : (picked.map NodeEntry.nodeID).Nodup
  sound : ∀ node ∈ picked, node ∈ nodes ∧ Eligible exclude minSpace node
  exact : err = none → picked.length = count
  best : err = none → ∀ other ∈ nodes, Eligible exclude minSpace other → other ∉ picked →
    ∀ node ∈ picked, ¬ precedes other node
  all : err ≠ none → picked.Perm (eligible nodes exclude minSpace)

theorem candidates_eq_eligible (nodes exclude : List NodeEntry) (minSpace : Int) :
    candidates nodes minSpace exclude = eligible nodes exclude minSpace := by
  unfold candidates filterByMinSpace filterNodes eligible
  split
  · rename_i unasked
    apply List.filter_congr
    intro node _
    have idle : 0 < minSpace → minSpace ≤ node.freeSpace.toNat := by omega
    exact decide_eq_decide.mpr ⟨fun kept => ⟨kept, idle⟩, And.left⟩
  · rename_i asked
    rw [List.filter_filter]
    apply List.filter_congr
    intro node _
    have positive : 0 < minSpace := by omega
    simp only [Eligible, positive, true_imp_iff, Bool.and_eq_decide, decide_eq_decide, decide_eq_true_eq]
    exact and_comm

theorem selectSorted_selection (sorter : Sorter NodeEntry) {less : NodeEntry → NodeEntry → Bool}
    (order : StrictWeakOrder less) {precedes : NodeEntry → NodeEntry → Prop}
    (same : ∀ a b, less a b = true ↔ precedes a b) {nodes : List NodeEntry}
    (distinct : (nodes.map NodeEntry.nodeID).Nodup) (minSpace : Int) {count : Int} (counted : 0 ≤ count)
    (exclude : List NodeEntry) :
    Selection precedes nodes exclude minSpace count
      (selectSorted sorter less nodes minSpace count exclude).1
      (selectSorted sorter less nodes minSpace count exclude).2 := by
  have perm := sorter.perm less (eligible nodes exclude minSpace)
  have sorted := sorter.sorted less (eligible nodes exclude minSpace) order
  have kept : (eligible nodes exclude minSpace).Sublist nodes := List.filter_sublist
  simp only [selectSorted, candidates_eq_eligible]
  generalize sorter.sort less (eligible nodes exclude minSpace) = all at perm sorted
  have inOrder : all.Pairwise fun a b => ¬ precedes b a :=
    sorted.imp fun {a b} notLess precedes => by simp [(same b a).mpr precedes] at notLess
  have ids : (all.map NodeEntry.nodeID).Nodup :=
    (perm.map NodeEntry.nodeID).nodup_iff.mpr ((kept.map NodeEntry.nodeID).nodup distinct)
  have members (node : NodeEntry) : node ∈ all ↔ node ∈ nodes ∧ Eligible exclude minSpace node := by
    rw [perm.mem_iff, eligible, List.mem_filter, decide_eq_true_eq]
  have size := perm.length_eq
  by_cases few : (all.length : Int) < count
  · rw [if_pos few]
    constructor
    · simp only [reduceCtorEq, false_iff]
      omega
    · exact inOrder
    · exact ids
    · exact fun node member => (members node).mp member
    · exact fun succeeded => by cases succeeded
    · exact fun succeeded => by cases succeeded
    · exact fun _ => perm
  · rw [if_neg few]
    have cut := List.take_append_drop count.toNat all
    constructor
    · simp only [true_iff]
      omega
    · exact inOrder.sublist (List.take_sublist _ _)
    · exact ((List.take_sublist _ _).map NodeEntry.nodeID).nodup ids
    · exact fun node member => (members node).mp (List.mem_of_mem_take member)
    · intro _
      rw [List.length_take]
      omega
    · intro _ other listed chosen absent node member
      have present := (members other).mpr ⟨listed, chosen⟩
      rw [← cut] at present inOrder
      rcases List.mem_append.mp present with first | left
      · exact absurd first absent
      · exact (List.pairwise_append.mp inOrder).2.2 node member other left
    · exact fun failed => absurd rfl failed

structure Optimal (strategy : SliceStrategy) (precedes : NodeEntry → NodeEntry → Prop) : Prop where
  selectNodes : ∀ (h : Heap NodeEntry) (nodes : Slice) (chunkID : String) (minSpace count : Int) (exclude : Slice),
    h.Holds nodes → ((h.read nodes).map NodeEntry.nodeID).Nodup → 0 ≤ count →
      Selection precedes (h.read nodes) (h.read exclude) minSpace count
        ((strategy.selectNodes h nodes chunkID minSpace count exclude).1.read
          (strategy.selectNodes h nodes chunkID minSpace count exclude).2.1)
        (strategy.selectNodes h nodes chunkID minSpace count exclude).2.2 ∧
      ∀ t, h.Holds t → (strategy.selectNodes h nodes chunkID minSpace count exclude).1.read t = h.read t
  selectNodeReverse : ∀ (h : Heap NodeEntry) (nodes : Slice) (chunkID : String) (minSpace count : Int)
    (exclude : Slice), h.Holds nodes → ((h.read nodes).map NodeEntry.nodeID).Nodup → 0 ≤ count →
      Selection (fun a b => precedes b a) (h.read nodes) (h.read exclude) minSpace count
        ((strategy.selectNodeReverse h nodes chunkID minSpace count exclude).1.read
          (strategy.selectNodeReverse h nodes chunkID minSpace count exclude).2.1)
        (strategy.selectNodeReverse h nodes chunkID minSpace count exclude).2.2 ∧
      ∀ t, h.Holds t →
        (strategy.selectNodeReverse h nodes chunkID minSpace count exclude).1.read t = h.read t
  selectPrimary : ∀ (h : Heap NodeEntry) (nodes : Slice), h.read nodes ≠ [] →
    (strategy.selectPrimary h nodes).2 ∈ h.read nodes ∧
    (∀ other ∈ h.read nodes, ¬ precedes other (strategy.selectPrimary h nodes).2) ∧
    ∀ t, h.Holds t → (strategy.selectPrimary h nodes).1.read t = h.read t

theorem fewerChunks_iff (a b : NodeEntry) : fewerChunks a b = true ↔ LessLoaded a b := by
  simp [fewerChunks, LessLoaded, UInt64.lt_iff_toNat_lt]

theorem fewerChunks_order : StrictWeakOrder fewerChunks where
  asymm a b above := by
    rw [fewerChunks_iff, LessLoaded] at above
    rw [← Bool.not_eq_true, fewerChunks_iff, LessLoaded]
    omega
  negTrans a b c := by
    simp only [← Bool.not_eq_true, fewerChunks_iff, LessLoaded]
    omega

section Optimality

variable (policy : GrowthPolicy) (sorter : Sorter NodeEntry) {less : NodeEntry → NodeEntry → Bool}
  (order : StrictWeakOrder less) {precedes : NodeEntry → NodeEntry → Prop}
  (same : ∀ a b, less a b = true ↔ precedes a b)
include order same

theorem slices_selection {h : Heap NodeEntry} {nodes : Slice} (held : h.Holds nodes)
    (distinct : ((h.read nodes).map NodeEntry.nodeID).Nodup) (minSpace : Int) {count : Int} (counted : 0 ≤ count)
    (exclude : Slice) :
    Selection precedes (h.read nodes) (h.read exclude) minSpace count
      ((Slices.selectSorted policy sorter less h nodes minSpace count exclude).1.read
        (Slices.selectSorted policy sorter less h nodes minSpace count exclude).2.1)
      (Slices.selectSorted policy sorter less h nodes minSpace count exclude).2.2 ∧
    ∀ t, h.Holds t → (Slices.selectSorted policy sorter less h nodes minSpace count exclude).1.read t = h.read t := by
  obtain ⟨older, refined⟩ := Slices.selectSorted_refines policy sorter less held minSpace count exclude
  have selection := selectSorted_selection sorter order same distinct minSpace counted (h.read exclude)
  rw [← refined] at selection
  exact ⟨selection, older⟩

end Optimality

theorem mostFreeSpaceStrategy_optimal (policy : GrowthPolicy) (sorter : Sorter NodeEntry) :
    Optimal (Slices.mostFreeSpaceStrategy policy sorter) MoreFree where
  selectNodes h nodes _ minSpace count exclude held distinct counted :=
    slices_selection policy sorter sortByMostFreeSpace_order sortByMostFreeSpace_iff held distinct minSpace
      counted exclude
  selectNodeReverse h nodes _ minSpace count exclude held distinct counted :=
    slices_selection policy sorter sortByMostFreeSpace_order.flip (fun a b => sortByMostFreeSpace_iff b a) held
      distinct minSpace counted exclude
  selectPrimary h nodes some := by
    have filled : nodes.len ≠ 0 := by
      rw [← h.length_read]
      simpa using some
    have copied := (Heap.OwnWrites.nil h).append policy (h.read nodes)
    have read := Heap.read_append policy h default (h.read nodes)
    have unset : h.read default = [] := Heap.read_of_cap_eq_zero h rfl
    rw [unset, List.nil_append] at read
    have sorted := Heap.read_sortInPlace sorter sortByMostFreeSpace
      (h.append policy default (h.read nodes)).1 (h.append policy default (h.read nodes)).2
    rw [read] at sorted
    simp only [Slices.mostFreeSpaceStrategy, filled, if_false, sorted]
    have perm := sorter.perm sortByMostFreeSpace (h.read nodes)
    have inOrder := sorter.sorted sortByMostFreeSpace (h.read nodes) sortByMostFreeSpace_order
    generalize sorter.sort sortByMostFreeSpace (h.read nodes) = all at perm inOrder
    cases all with
    | nil => exact absurd perm.nil_eq.symm some
    | cons first rest =>
      refine ⟨perm.subset List.mem_cons_self, ?_, (copied.sortInPlace sorter sortByMostFreeSpace).older⟩
      intro other member before
      have above := (sortByMostFreeSpace_iff other first).mpr before
      rcases List.mem_cons.mp (perm.mem_iff.mpr member) with rfl | later
      · have self := sortByMostFreeSpace_order.asymm _ _ above
        rw [above] at self
        cases self
      · have kept := (List.pairwise_cons.mp inOrder).1 other later
        rw [kept] at above
        cases above

theorem leastLoadedStrategy_optimal (policy : GrowthPolicy) (sorter : Sorter NodeEntry) :
    Optimal (Slices.leastLoadedStrategy policy sorter) LessLoaded where
  selectNodes h nodes _ minSpace count exclude held distinct counted :=
    slices_selection policy sorter fewerChunks_order fewerChunks_iff held distinct minSpace counted exclude
  selectNodeReverse h nodes _ minSpace count exclude held distinct counted :=
    slices_selection policy sorter fewerChunks_order.flip (fun a b => fewerChunks_iff b a) held distinct minSpace
      counted exclude
  selectPrimary h nodes some := by
    simp only [Slices.leastLoadedStrategy, Placement.leastLoadedStrategy]
    cases values : h.read nodes with
    | nil => exact absurd values some
    | cons best rest =>
      refine ⟨firstLeast_mem fewerChunks best rest, ?_, fun _ _ => trivial⟩
      intro other member before
      have above := (fewerChunks_iff _ _).mpr before
      rw [firstLeast_least fewerChunks_order best rest other member] at above
      cases above

/-- Both strategies select soundly and optimally in their order, over the slices of any heap. -/
theorem placement_optimal (policy : GrowthPolicy) (sorter : Sorter NodeEntry) :
    Optimal (Slices.mostFreeSpaceStrategy policy sorter) MoreFree ∧
      Optimal (Slices.leastLoadedStrategy policy sorter) LessLoaded :=
  ⟨mostFreeSpaceStrategy_optimal policy sorter, leastLoadedStrategy_optimal policy sorter⟩

end DistributedFs.Placement
