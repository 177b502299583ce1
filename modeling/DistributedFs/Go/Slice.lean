import Mathlib.Data.List.Basic
import Mathlib.Order.Lattice
import Mathlib.Order.MinMax

namespace Go

/-- A slice header: a window of `len` cells, with room for `cap`, of a backing array.
    Copying the header shares the array. -/
structure Slice where
  array : Nat
  off : Nat
  len : Nat
  cap : Nat
  room : len ≤ cap
deriving DecidableEq

instance : Inhabited Slice := ⟨⟨0, 0, 0, 0, le_rfl⟩⟩

namespace Slice

def take (s : Slice) (n : Nat) : Slice :=
  ⟨s.array, s.off, min n s.len, s.cap, le_trans (min_le_right n s.len) s.room⟩

theorem take_len (s : Slice) : s.take s.len = s := by
  cases s
  simp [take]

def drop (s : Slice) (n : Nat) : Slice :=
  ⟨s.array, s.off + n, s.len - n, s.cap - n, Nat.sub_le_sub_right s.room n⟩

end Slice

structure Heap (α : Type) where
  cells : Nat → Nat → α
  next : Nat

/-- The capacity of the array that a growing `append` moves to. Go promises only that
    it suffices. -/
structure GrowthPolicy where
  newCap : Nat → Nat → Nat
  enough : ∀ old needed, needed ≤ newCap old needed

namespace Heap

variable {α : Type}

def read (h : Heap α) (s : Slice) : List α :=
  (List.range s.len).map fun i => h.cells s.array (s.off + i)

def store (h : Heap α) (array start : Nat) (values : List α) : Heap α where
  cells a i :=
    if a = array ∧ start ≤ i then values[i - start]?.getD (h.cells a i) else h.cells a i
  next := h.next

def alloc [Inhabited α] (h : Heap α) (values : List α) (cap : Nat) (room : values.length ≤ cap) :
    Heap α × Slice :=
  ({ cells := fun a i => if a = h.next then values[i]?.getD default else h.cells a i
     next := h.next + 1 },
    ⟨h.next, 0, values.length, cap, room⟩)

def make [Inhabited α] (h : Heap α) (cap : Nat) : Heap α × Slice := h.alloc [] cap (Nat.zero_le cap)

/-- `append(s, values...)`: in place while the capacity suffices, else on a fresh array. -/
def append [Inhabited α] (policy : GrowthPolicy) (h : Heap α) (s : Slice) (values : List α) :
    Heap α × Slice :=
  if fits : s.len + values.length ≤ s.cap then
    (h.store s.array (s.off + s.len) values,
      ⟨s.array, s.off, s.len + values.length, s.cap, fits⟩)
  else
    h.alloc (h.read s ++ values) (policy.newCap s.cap (s.len + values.length))
      (by simpa [read] using policy.enough s.cap (s.len + values.length))

theorem length_read (h : Heap α) (s : Slice) : (h.read s).length = s.len := by
  simp [read]

theorem getElem?_read (h : Heap α) (s : Slice) (i : Nat) :
    (h.read s)[i]? = if i < s.len then some (h.cells s.array (s.off + i)) else none := by
  by_cases inside : i < s.len
  · simp [read, inside]
  · simp [read, inside]

theorem read_take (h : Heap α) (s : Slice) (n : Nat) : h.read (s.take n) = (h.read s).take n := by
  apply List.ext_getElem?
  intro i
  rw [List.getElem?_take, getElem?_read, getElem?_read]
  simp only [Slice.take, lt_min_iff]
  by_cases below : i < n <;> simp [below]

theorem read_drop (h : Heap α) (s : Slice) (n : Nat) : h.read (s.drop n) = (h.read s).drop n := by
  apply List.ext_getElem?
  intro i
  rw [List.getElem?_drop, getElem?_read, getElem?_read]
  simp only [Slice.drop, Nat.add_assoc]
  have shifted : i < s.len - n ↔ n + i < s.len := by omega
  simp only [shifted]

theorem read_store_of_ne (h : Heap α) {array : Nat} (start : Nat) (values : List α) {s : Slice}
    (other : s.array ≠ array) : (h.store array start values).read s = h.read s := by
  simp [read, store, other]

theorem read_store_eq_iff (h : Heap α) (start : Nat) (values : List α) (s : Slice) :
    (h.store s.array start values).read s = h.read s ↔
      ∀ i < s.len, start ≤ s.off + i → ∀ value, values[s.off + i - start]? = some value →
        value = h.cells s.array (s.off + i) := by
  simp only [read, List.map_inj_left, List.mem_range, store, true_and]
  refine forall₂_congr fun i _ => ?_
  by_cases reached : start ≤ s.off + i
  · simp only [reached, if_true, true_imp_iff]
    cases values[s.off + i - start]? <;> simp
  · simp [reached]

theorem read_alloc_of_lt [Inhabited α] (h : Heap α) (values : List α) (cap : Nat)
    (room : values.length ≤ cap) {s : Slice} (old : s.array < h.next) :
    (h.alloc values cap room).1.read s = h.read s := by
  have other : s.array ≠ h.next := Nat.ne_of_lt old
  simp [read, alloc, other]

theorem read_alloc [Inhabited α] (h : Heap α) (values : List α) (cap : Nat)
    (room : values.length ≤ cap) :
    (h.alloc values cap room).1.read (h.alloc values cap room).2 = values := by
  apply List.ext_getElem?
  intro i
  rw [getElem?_read]
  simp only [alloc, Nat.zero_add, if_true]
  by_cases inside : i < values.length
  · simp [inside]
  · simp [inside]

theorem read_append [Inhabited α] (policy : GrowthPolicy) (h : Heap α) (s : Slice)
    (values : List α) :
    (h.append policy s values).1.read (h.append policy s values).2 = h.read s ++ values := by
  unfold append
  split
  · apply List.ext_getElem?
    intro i
    rw [List.getElem?_append, length_read, getElem?_read, getElem?_read]
    simp only [store, true_and]
    by_cases inside : i < s.len
    · simp [inside, Nat.lt_add_right, Nat.not_le.mpr inside]
    · have reached : s.off + s.len ≤ s.off + i := by omega
      have index : s.off + i - (s.off + s.len) = i - s.len := by omega
      simp only [inside, if_false, reached, if_true, index]
      by_cases written : i < s.len + values.length
      · have position : i - s.len < values.length := by omega
        simp [written, position]
      · have beyond : values.length ≤ i - s.len := by omega
        simp [written, beyond]
  · exact read_alloc _ _ _ _

theorem read_of_cap_eq_zero (h : Heap α) {s : Slice} (empty : s.cap = 0) : h.read s = [] := by
  have none : s.len = 0 := Nat.le_zero.mp (empty ▸ s.room)
  simp [read, none]

/-- An append is invisible to the slices over other allocated arrays. Slices without
    capacity have no cells, whatever array they name. -/
theorem read_append_of_apart [Inhabited α] (policy : GrowthPolicy) (h : Heap α) {s : Slice}
    (values : List α) {t : Slice} (old : t.array < h.next)
    (apart : 0 < t.cap → 0 < s.cap → t.array ≠ s.array) :
    (h.append policy s values).1.read t = h.read t := by
  by_cases cells : 0 < t.cap
  · unfold append
    split
    · rename_i fits
      by_cases same : t.array = s.array
      · have nil : s.cap = 0 := Nat.eq_zero_of_not_pos fun pos => apart cells pos same
        have nothing : values = [] := List.eq_nil_of_length_eq_zero (by omega)
        simp [read, store, nothing]
      · exact read_store_of_ne h _ values same
    · exact read_alloc_of_lt h _ _ _ old
  · have empty : t.cap = 0 := Nat.eq_zero_of_not_pos cells
    rw [read_of_cap_eq_zero _ empty, read_of_cap_eq_zero _ empty]

theorem read_delete [Inhabited α] (policy : GrowthPolicy) (h : Heap α) (s : Slice) (n : Nat) :
    (h.append policy (s.take n) (h.read (s.drop (n + 1)))).1.read
        (h.append policy (s.take n) (h.read (s.drop (n + 1)))).2 = (h.read s).eraseIdx n := by
  rw [read_append, read_take, read_drop, List.eraseIdx_eq_take_drop_succ]

theorem append_array [Inhabited α] (policy : GrowthPolicy) (h : Heap α) (s : Slice)
    (values : List α) :
    ((h.append policy s values).2.array = s.array ∧ (h.append policy s values).1.next = h.next ∧
        (h.append policy s values).2.cap = s.cap) ∨
      ((h.append policy s values).2.array = h.next ∧
        (h.append policy s values).1.next = h.next + 1) := by
  unfold append
  split
  · exact .inl ⟨rfl, rfl, rfl⟩
  · exact .inr ⟨rfl, rfl⟩

theorem append_off [Inhabited α] (policy : GrowthPolicy) (h : Heap α) {s : Slice}
    (values : List α) (base : s.off = 0) : (h.append policy s values).2.off = 0 := by
  unfold append
  split
  · exact base
  · rfl

structure GrewInPlace (h : Heap α) (s : Slice) (h' : Heap α) (s' : Slice) : Prop where
  array : s'.array = s.array
  off : s'.off = s.off
  cap : s'.cap = s.cap
  next : h'.next = h.next
  others : ∀ t : Slice, t.array ≠ s.array → h'.read t = h.read t

theorem GrewInPlace.refl (h : Heap α) (s : Slice) : h.GrewInPlace s h s :=
  ⟨rfl, rfl, rfl, rfl, fun _ _ => rfl⟩

theorem GrewInPlace.trans {h h' h'' : Heap α} {s s' s'' : Slice} (early : h.GrewInPlace s h' s')
    (late : h'.GrewInPlace s' h'' s'') : h.GrewInPlace s h'' s'' where
  array := late.array.trans early.array
  off := late.off.trans early.off
  cap := late.cap.trans early.cap
  next := late.next.trans early.next
  others t other := (late.others t (by rwa [early.array])).trans (early.others t other)

theorem append_of_fits [Inhabited α] (policy : GrowthPolicy) (h : Heap α) (s : Slice)
    (values : List α) (fits : s.len + values.length ≤ s.cap) :
    h.append policy s values = (h.store s.array (s.off + s.len) values,
      ⟨s.array, s.off, s.len + values.length, s.cap, fits⟩) := by
  simp [append, fits]

theorem append_grewInPlace [Inhabited α] (policy : GrowthPolicy) (h : Heap α) (s : Slice)
    (values : List α) (fits : s.len + values.length ≤ s.cap) :
    h.GrewInPlace s (h.append policy s values).1 (h.append policy s values).2 := by
  rw [append_of_fits policy h s values fits]
  exact ⟨rfl, rfl, rfl, rfl, fun _ other => read_store_of_ne h _ values other⟩

end Heap

end Go
