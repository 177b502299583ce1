import DistributedFs.Go.Slice
import DistributedFs.Go.Sort

namespace Go.Heap

variable {α : Type}

def Holds (h : Heap α) (s : Slice) : Prop := s.cap = 0 ∨ s.array < h.next

structure OwnWrites (h h' : Heap α) (out : Slice) : Prop where
  next : h.next ≤ h'.next
  older : ∀ t, h.Holds t → h'.read t = h.read t
  own : out.cap = 0 ∨ h.next ≤ out.array
  held : h'.Holds out

/-- One turn of `for _, v := range s { if keep(v) { out = append(out, v) } }`; it reads its
    element from the heap that the turns before have left. -/
def collectTurn [Inhabited α] (policy : GrowthPolicy) (keep : α → Bool) (s : Slice) (now : Heap α × Slice)
    (i : Nat) : Heap α × Slice :=
  if keep (now.1.cells s.array (s.off + i)) then
    now.1.append policy now.2 [now.1.cells s.array (s.off + i)]
  else now

def collect [Inhabited α] (policy : GrowthPolicy) (keep : α → Bool) (s : Slice) (start : Heap α × Slice) :
    Heap α × Slice :=
  (List.range s.len).foldl (collectTurn policy keep s) start

/-- `sort.Sort` and `sort.Slice` only swap elements of the slice they are given. -/
def sortInPlace (sorter : Sorter α) (less : α → α → Bool) (h : Heap α) (s : Slice) : Heap α :=
  h.store s.array s.off (sorter.sort less (h.read s))

theorem cells_of_read {h h' : Heap α} {s : Slice} (same : h'.read s = h.read s) {i : Nat} (inside : i < s.len) :
    h'.cells s.array (s.off + i) = h.cells s.array (s.off + i) := by
  have element := congrArg (fun values => values[i]?) same
  simp only [getElem?_read, inside, if_true] at element
  exact Option.some.inj element

theorem read_store_self (h : Heap α) {s : Slice} {values : List α} (full : values.length = s.len) :
    (h.store s.array s.off values).read s = values := by
  apply List.ext_getElem?
  intro i
  rw [getElem?_read]
  by_cases inside : i < s.len
  · have written : i < values.length := by omega
    simp [inside, store, written]
  · rw [if_neg inside, List.getElem?_eq_none (by omega)]

theorem read_sortInPlace (sorter : Sorter α) (less : α → α → Bool) (h : Heap α) (s : Slice) :
    (h.sortInPlace sorter less s).read s = sorter.sort less (h.read s) := by
  apply read_store_self
  rw [(sorter.perm less _).length_eq, length_read]

namespace OwnWrites

variable {h h' h'' : Heap α} {out : Slice}

theorem nil (h : Heap α) : OwnWrites h h default where
  next := Nat.le_refl _
  older _ _ := rfl
  own := .inl rfl
  held := .inl rfl

theorem trans {mid : Slice} (first : OwnWrites h h' mid) (second : OwnWrites h' h'' out) :
    OwnWrites h h'' out where
  next := Nat.le_trans first.next second.next
  older t held := by
    have still : h'.Holds t := by
      rcases held with empty | below
      · exact .inl empty
      · exact .inr (Nat.lt_of_lt_of_le below first.next)
    rw [second.older t still, first.older t held]
  own := by
    rcases second.own with empty | above
    · exact .inl empty
    · exact .inr (Nat.le_trans first.next above)
  held := second.held

theorem make [Inhabited α] (h : Heap α) (cap : Nat) : OwnWrites h (h.make cap).1 (h.make cap).2 where
  next := Nat.le_succ _
  older t held := by
    rcases held with empty | below
    · rw [read_of_cap_eq_zero _ empty, read_of_cap_eq_zero _ empty]
    · exact read_alloc_of_lt h [] cap _ below
  own := .inr (Nat.le_refl _)
  held := .inr (Nat.lt_succ_self _)

theorem append [Inhabited α] (policy : GrowthPolicy) (values : List α) (own : OwnWrites h h' out) :
    OwnWrites h (h'.append policy out values).1 (h'.append policy out values).2 where
  next := by
    rcases append_array policy h' out values with ⟨_, same, _⟩ | ⟨_, more⟩
    · rw [same]
      exact own.next
    · rw [more]
      exact Nat.le_succ_of_le own.next
  older t held := by
    rcases held with empty | below
    · rw [read_of_cap_eq_zero _ empty, read_of_cap_eq_zero _ empty]
    · rw [read_append_of_apart policy h' values (Nat.lt_of_lt_of_le below own.next), own.older t (.inr below)]
      intro _ cells shared
      rcases own.own with empty | above
      · omega
      · omega
  own := by
    rcases append_array policy h' out values with ⟨same, _, cap⟩ | ⟨new, _⟩
    · rw [same, cap]
      exact own.own
    · rw [new]
      exact .inr own.next
  held := by
    rcases append_array policy h' out values with ⟨same, next, cap⟩ | ⟨new, next⟩
    · rw [Holds, same, cap, next]
      exact own.held
    · rw [Holds, new, next]
      exact .inr (Nat.lt_succ_self _)

theorem sortInPlace (sorter : Sorter α) (less : α → α → Bool) (own : OwnWrites h h' out) :
    OwnWrites h (h'.sortInPlace sorter less out) out where
  next := own.next
  older t held := by
    rcases held with empty | below
    · rw [read_of_cap_eq_zero _ empty, read_of_cap_eq_zero _ empty]
    · rw [← own.older t (.inr below)]
      rcases own.own with empty | above
      · -- a slice without cells has nothing to write back
        have nothing : sorter.sort less (h'.read out) = [] := by
          rw [read_of_cap_eq_zero _ empty]
          exact (sorter.perm less []).eq_nil
        rw [Heap.sortInPlace, nothing]
        simp [read, store]
      · exact read_store_of_ne h' _ _ (show t.array ≠ out.array by omega)
  own := own.own
  held := own.held

end OwnWrites

section Collect

variable [Inhabited α] {h h' : Heap α} {s out : Slice} (policy : GrowthPolicy) (keep : α → Bool)

theorem collectTurn_spec (held : h.Holds s) {i : Nat} (inside : i < s.len) (own : OwnWrites h h' out) :
    OwnWrites h (collectTurn policy keep s (h', out) i).1 (collectTurn policy keep s (h', out) i).2 ∧
    (collectTurn policy keep s (h', out) i).1.read (collectTurn policy keep s (h', out) i).2 =
      h'.read out ++ [h.cells s.array (s.off + i)].filter keep := by
  have element := cells_of_read (own.older s held) inside
  simp only [collectTurn, element]
  by_cases kept : keep (h.cells s.array (s.off + i)) = true
  · rw [if_pos kept, List.filter_cons_of_pos kept]
    exact ⟨own.append policy _, read_append policy h' out _⟩
  · rw [if_neg kept, List.filter_cons_of_neg kept, List.filter_nil, List.append_nil]
    exact ⟨own, rfl⟩

theorem collect_from (held : h.Holds s) {indices : List Nat} (inside : ∀ i ∈ indices, i < s.len)
    (own : OwnWrites h h' out) :
    OwnWrites h (indices.foldl (collectTurn policy keep s) (h', out)).1
      (indices.foldl (collectTurn policy keep s) (h', out)).2 ∧
    (indices.foldl (collectTurn policy keep s) (h', out)).1.read
        (indices.foldl (collectTurn policy keep s) (h', out)).2 =
      h'.read out ++ (indices.map fun i => h.cells s.array (s.off + i)).filter keep := by
  induction indices generalizing h' out with
  | nil => exact ⟨own, by simp⟩
  | cons i rest ih =>
    obtain ⟨turn, read⟩ := collectTurn_spec policy keep held (inside i (by simp)) own
    obtain ⟨last, final⟩ := ih (fun j member => inside j (by simp [member])) turn
    rw [read, List.append_assoc, ← List.filter_append] at final
    exact ⟨last, final⟩

theorem collect_spec (held : h.Holds s) (own : OwnWrites h h' out) (empty : h'.read out = []) :
    OwnWrites h (collect policy keep s (h', out)).1 (collect policy keep s (h', out)).2 ∧
    (collect policy keep s (h', out)).1.read (collect policy keep s (h', out)).2 = (h.read s).filter keep := by
  have loop := collect_from policy keep held (fun _ => List.mem_range.mp) own
  rw [empty, List.nil_append] at loop
  exact loop

end Collect

end Go.Heap
