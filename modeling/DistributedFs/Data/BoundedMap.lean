import Mathlib.Algebra.BigOperators.Group.Finset.Basic
import Mathlib.Algebra.Order.BigOperators.Group.Finset
import Mathlib.Data.Finmap

namespace WeightedMap

variable {K V : Type} [DecidableEq K]

def weightAt (weight : V → Nat) (m : Finmap fun _ : K => V) (k : K) : Nat :=
  (m.lookup k).elim 0 weight

def total (weight : V → Nat) (m : Finmap fun _ : K => V) : Nat :=
  ∑ k ∈ m.keys, weightAt weight m k

variable {weight : V → Nat} {m : Finmap fun _ : K => V}

theorem weightAt_of_lookup {k : K} {v : V} (found : m.lookup k = some v) :
    weightAt weight m k = weight v := by
  simp [weightAt, found]

theorem weightAt_of_absent {k : K} (absent : m.lookup k = none) : weightAt weight m k = 0 := by
  simp [weightAt, absent]

theorem keys_insert (k : K) (v : V) : (m.insert k v).keys = insert k (m.keys.erase k) := by
  ext other
  simp only [Finmap.mem_keys, Finmap.mem_insert, Finset.mem_insert, Finset.mem_erase]
  tauto

theorem keys_erase (k : K) : (m.erase k).keys = m.keys.erase k := by
  ext other
  simp [Finmap.mem_keys]

theorem sum_others_add_weightAt (weight : V → Nat) (m : Finmap fun _ : K => V) (k : K) :
    ∑ other ∈ m.keys.erase k, weightAt weight m other + weightAt weight m k = total weight m := by
  by_cases present : k ∈ m.keys
  · exact Finset.sum_erase_add _ _ present
  · have absent : m.lookup k = none := by
      rw [Finmap.mem_keys] at present
      exact Finmap.lookup_eq_none.mpr present
    rw [weightAt_of_absent absent, Finset.erase_eq_of_notMem present]
    rfl

theorem total_insert_add (weight : V → Nat) (m : Finmap fun _ : K => V) (k : K) (v : V) :
    total weight (m.insert k v) + weightAt weight m k = total weight m + weight v := by
  have others : ∑ other ∈ m.keys.erase k, weightAt weight (m.insert k v) other =
      ∑ other ∈ m.keys.erase k, weightAt weight m other := by
    apply Finset.sum_congr rfl
    intro other member
    have away : other ≠ k := (Finset.mem_erase.mp member).1
    rw [weightAt, weightAt, Finmap.lookup_insert_of_ne _ away]
  have here : weightAt weight (m.insert k v) k = weight v := weightAt_of_lookup (Finmap.lookup_insert m)
  have split := sum_others_add_weightAt weight m k
  rw [total, keys_insert, Finset.sum_insert (Finset.notMem_erase k _), here, others]
  omega

theorem total_erase_add (weight : V → Nat) (m : Finmap fun _ : K => V) (k : K) :
    total weight (m.erase k) + weightAt weight m k = total weight m := by
  have others : ∑ other ∈ m.keys.erase k, weightAt weight (m.erase k) other =
      ∑ other ∈ m.keys.erase k, weightAt weight m other := by
    apply Finset.sum_congr rfl
    intro other member
    have away : other ≠ k := (Finset.mem_erase.mp member).1
    rw [weightAt, weightAt, Finmap.lookup_erase_ne away]
  rw [total, keys_erase, others]
  exact sum_others_add_weightAt weight m k

theorem weightAt_le_total (weight : V → Nat) (m : Finmap fun _ : K => V) (k : K) :
    weightAt weight m k ≤ total weight m := by
  have split := sum_others_add_weightAt weight m k
  omega

end WeightedMap

structure BoundedMap (K V : Type) [DecidableEq K] (weight : V → Nat) (capacity : Nat) where
  entries : Finmap fun _ : K => V
  bounded : WeightedMap.total weight entries ≤ capacity

namespace BoundedMap

open WeightedMap

variable {K V : Type} [DecidableEq K] {weight : V → Nat} {capacity : Nat}

def empty : BoundedMap K V weight capacity := ⟨∅, Nat.zero_le _⟩

def lookup (m : BoundedMap K V weight capacity) (k : K) : Option V := m.entries.lookup k

def size (m : BoundedMap K V weight capacity) : Nat := total weight m.entries

def put (m : BoundedMap K V weight capacity) (k : K) (v : V) : Option (BoundedMap K V weight capacity) :=
  if fits : total weight (m.entries.insert k v) ≤ capacity then some ⟨m.entries.insert k v, fits⟩
  else none

def erase (m : BoundedMap K V weight capacity) (k : K) : BoundedMap K V weight capacity where
  entries := m.entries.erase k
  bounded := by
    have split := total_erase_add weight m.entries k
    have bounded := m.bounded
    omega

theorem put_of_fits {m : BoundedMap K V weight capacity} {k : K} {v : V}
    (fits : total weight (m.entries.insert k v) ≤ capacity) :
    m.put k v = some ⟨m.entries.insert k v, fits⟩ := by
  simp only [put, dif_pos fits]

theorem put_eq_none {m : BoundedMap K V weight capacity} {k : K} {v : V} :
    m.put k v = none ↔ capacity < total weight (m.entries.insert k v) := by
  by_cases fits : total weight (m.entries.insert k v) ≤ capacity
  · simp only [put_of_fits fits, reduceCtorEq, false_iff]
    omega
  · simp only [put, dif_neg fits, true_iff]
    omega

end BoundedMap
