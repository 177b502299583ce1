import Mathlib.Data.Finset.Basic
import Mathlib.Data.Set.Basic
import Mathlib.Logic.Relation

/-- A set of keys beside the values that have claimed one and not released it. -/
structure Register (α κ : Type) where
  keys : Finset κ
  held : Multiset α

namespace Register

variable {α κ : Type} {key : α → κ} {allowed : Set α} {r later : Register α κ}

def empty : Register α κ := ⟨∅, 0⟩

structure Tracks (key : α → κ) (allowed : Set α) (r : Register α κ) : Prop where
  drawn : ∀ a ∈ r.held, a ∈ allowed
  nodup : (r.held.map key).Nodup
  mem : ∀ k, k ∈ r.keys ↔ k ∈ r.held.map key

theorem tracks_empty : Tracks key allowed (empty : Register α κ) := by
  refine ⟨?_, Multiset.nodup_zero, fun _ => Iff.rfl⟩
  intro a member
  exact absurd member (Multiset.notMem_zero a)

variable [DecidableEq κ]

inductive Step (key : α → κ) (allowed : Set α) : Register α κ → Register α κ → Prop where
  | claim {r : Register α κ} {a : α} (member : a ∈ allowed) (fresh : key a ∉ r.keys) :
    Step key allowed r ⟨insert (key a) r.keys, a ::ₘ r.held⟩
  | release {r : Register α κ} {a : α} {rest : Multiset α} (holds : r.held = a ::ₘ rest) :
    Step key allowed r ⟨r.keys.erase (key a), rest⟩

theorem Tracks.step (tracks : Tracks key allowed r) (step : Step key allowed r later) :
    Tracks key allowed later := by
  cases step with
  | claim member fresh =>
    refine ⟨?_, ?_, ?_⟩
    · intro a holder
      rcases Multiset.mem_cons.mp holder with rfl | earlier
      · exact member
      · exact tracks.drawn a earlier
    · rw [Multiset.map_cons, Multiset.nodup_cons, ← tracks.mem]
      exact ⟨fresh, tracks.nodup⟩
    · intro k
      rw [Finset.mem_insert, Multiset.map_cons, Multiset.mem_cons, tracks.mem]
  | release holds =>
    have nodup := tracks.nodup
    rw [holds, Multiset.map_cons, Multiset.nodup_cons] at nodup
    refine ⟨?_, nodup.2, ?_⟩
    · intro a holder
      apply tracks.drawn a
      rw [holds]
      exact Multiset.mem_cons_of_mem holder
    intro k
    rw [Finset.mem_erase, tracks.mem, holds, Multiset.map_cons, Multiset.mem_cons]
    constructor
    · rintro ⟨other, same | member⟩
      · exact absurd same other
      · exact member
    · intro member
      refine ⟨?_, .inr member⟩
      rintro rfl
      exact nodup.1 member

theorem Tracks.steps (tracks : Tracks key allowed r)
    (steps : Relation.ReflTransGen (Step key allowed) r later) : Tracks key allowed later := by
  induction steps with
  | refl => exact tracks
  | tail _ step ih => exact ih.step step

theorem Tracks.count (tracks : Tracks key allowed r) (k : κ) :
    (r.held.map key).count k = if k ∈ r.keys then 1 else 0 := by
  rw [Multiset.count_eq_of_nodup tracks.nodup]
  simp only [tracks.mem]

end Register
