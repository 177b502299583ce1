import Mathlib.Data.Finset.Basic
import Mathlib.Logic.Function.Basic

/-- Handles that are numbered as they are made, and those that were closed. -/
structure Handles where
  made : Nat
  closed : Finset Nat

namespace Handles

variable {ι : Type} {h : Handles} {owner : ι → Option Nat} {i j : ι} {k other : Nat}

def empty : Handles := ⟨0, ∅⟩

def Open (h : Handles) (k : Nat) : Prop := k < h.made ∧ k ∉ h.closed

def acquire (h : Handles) : Handles := ⟨h.made + 1, h.closed.erase h.made⟩

def release (k : Nat) (h : Handles) : Handles := { h with closed := insert k h.closed }

theorem open_acquire : h.acquire.Open k ↔ h.Open k ∨ k = h.made := by
  unfold Open acquire
  by_cases new : k = h.made
  · simp [new]
  · have below : k < h.made + 1 ↔ k < h.made := by omega
    simp [new, below]

theorem open_release : (h.release other).Open k ↔ h.Open k ∧ k ≠ other := by
  simp only [Open, release, Finset.mem_insert, not_or]
  tauto

/-- The open handles are those that have an owner, and they have one only. -/
structure OwnedBy (h : Handles) (owner : ι → Option Nat) : Prop where
  open_iff : ∀ k, h.Open k ↔ ∃ i, owner i = some k
  single : ∀ i j k, owner i = some k → owner j = some k → i = j

namespace OwnedBy

theorem empty : OwnedBy Handles.empty (fun _ : ι => none) where
  open_iff k := by simp [Open, Handles.empty]
  single i j k owns := by cases owns

theorem isOpen (owned : OwnedBy h owner) (owns : owner i = some k) : h.Open k :=
  (owned.open_iff k).mpr ⟨i, owns⟩

variable [DecidableEq ι]

theorem acquire (owned : OwnedBy h owner) (free : owner i = none) :
    OwnedBy h.acquire (Function.update owner i (some h.made)) where
  open_iff k := by
    rw [open_acquire, owned.open_iff]
    constructor
    · rintro (⟨j, owns⟩ | rfl)
      · have apart : j ≠ i := by
          rintro rfl
          cases free.symm.trans owns
        exact ⟨j, (Function.update_of_ne apart _ _).trans owns⟩
      · exact ⟨i, Function.update_self ..⟩
    · rintro ⟨j, owns⟩
      by_cases here : j = i
      · rw [here, Function.update_self] at owns
        exact .inr (Option.some.inj owns).symm
      · rw [Function.update_of_ne here] at owns
        exact .inl ⟨j, owns⟩
  single j j' k first second := by
    have new (l : ι) : owner l ≠ some h.made := fun owns => absurd (owned.isOpen owns).1 (lt_irrefl _)
    rw [Function.update_apply] at first second
    split at first
    · rename_i here
      split at second
      · rename_i there
        rw [here, there]
      · rw [← first] at second
        exact absurd second (new j')
    · split at second
      · rw [← second] at first
        exact absurd first (new j)
      · exact owned.single j j' k first second

theorem release (owned : OwnedBy h owner) (owns : owner i = some k) :
    OwnedBy (h.release k) (Function.update owner i none) where
  open_iff other := by
    rw [open_release, owned.open_iff]
    constructor
    · rintro ⟨⟨j, keeps⟩, apart⟩
      have elsewhere : j ≠ i := by
        rintro rfl
        exact apart (Option.some.inj (keeps.symm.trans owns))
      exact ⟨j, (Function.update_of_ne elsewhere _ _).trans keeps⟩
    · rintro ⟨j, keeps⟩
      by_cases here : j = i
      · rw [here, Function.update_self] at keeps
        cases keeps
      · rw [Function.update_of_ne here] at keeps
        refine ⟨⟨j, keeps⟩, ?_⟩
        rintro rfl
        exact here (owned.single j i _ keeps owns)
  single j j' other first second := by
    rw [Function.update_apply] at first second
    split at first
    · cases first
    · split at second
      · cases second
      · exact owned.single j j' other first second

theorem move (owned : OwnedBy h owner) (owns : owner i = some k) (free : owner j = none) :
    OwnedBy h (Function.update (Function.update owner i none) j (some k)) := by
  have apart : i ≠ j := by
    rintro rfl
    cases free.symm.trans owns
  have moved (l : ι) (other : Nat) : Function.update (Function.update owner i none) j (some k) l = some other ↔
      (l = j ∧ other = k) ∨ (l ≠ j ∧ l ≠ i ∧ owner l = some other) := by
    simp only [Function.update_apply]
    split
    · rename_i here
      simp [here, eq_comm]
    · rename_i away
      split
      · rename_i left
        simp [left, apart]
      · rename_i left
        simp [away, left]
  constructor
  · intro other
    simp only [moved]
    rw [owned.open_iff]
    constructor
    · rintro ⟨l, keeps⟩
      by_cases mine : l = i
      · rw [mine, owns] at keeps
        exact ⟨j, .inl ⟨rfl, (Option.some.inj keeps).symm⟩⟩
      · refine ⟨l, .inr ⟨?_, mine, keeps⟩⟩
        rintro rfl
        cases free.symm.trans keeps
    · rintro ⟨l, ⟨_, rfl⟩ | ⟨_, _, keeps⟩⟩
      · exact ⟨i, owns⟩
      · exact ⟨l, keeps⟩
  · intro l l' other first second
    rw [moved] at first second
    rcases first with ⟨rfl, rfl⟩ | ⟨_, left, keeps⟩
    · rcases second with ⟨rfl, _⟩ | ⟨_, left, keeps⟩
      · rfl
      · exact absurd (owned.single _ _ _ keeps owns) left
    · rcases second with ⟨rfl, rfl⟩ | ⟨_, _, also⟩
      · exact absurd (owned.single _ _ _ keeps owns) left
      · exact owned.single _ _ _ keeps also

end OwnedBy

end Handles
